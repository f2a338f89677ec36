import JumpscaleX.CircleClosure
import JumpscaleX.Library.Runs

/-!
# What an access check means

A right that is given to a circle is written out for its subcircles when it is
given, while the members of circles change later, and a check asks whether one
record has all of the rights.  A check means that each right is held as long as
the members change where nothing is inherited, as long as no right is deleted
that a circle has from elsewhere too, and as long as the rights that are asked
for are found in one place.
-/

namespace JumpscaleX

open Stateful

namespace ACL

/-- Users and circles with one ACL, and the rights that have been given to
each of them directly. -/
structure Access where
  db : Db
  acl : Acl
  grants : List (Target × String)

/-- A new ACL in a database that has no other. -/
def Access.start : Access where
  db :=
    { users := []
      circles := .empty
      userNames := []
      circleNames := []
      acls := .empty
      aclNames := .empty
      lastId := 0 }
  acl := .new
  grants := []

inductive Deed where
  | createUser
  | createCircle (userMembers circleMembers : List Int)
  | setUserMembers (circleid : Int) (userMembers : List Int)
  | setCircleMembers (circleid : Int) (circleMembers : List Int)
  | rights (action : Action) (userids circleids : List Int) (rights : List String)

def Db.createUser (db : Db) : Db :=
  { db with users := (db.lastId + 1 : Nat) :: db.users, lastId := db.lastId + 1 }

/-- The database with the members of a circle, under its id. -/
def Db.setCircle (db : Db) (circleid : Int) (circle : Circle) : Db :=
  { db with circles := db.circles.insert circleid circle }

def Db.createCircle (db : Db) (circle : Circle) : Db :=
  { db.setCircle (db.lastId + 1 : Nat) circle with lastId := db.lastId + 1 }

/-- The members of a stored circle are changed. -/
def Db.changeCircle (db : Db) (circleid : Int) (change : Circle → Circle) : Db :=
  match db.circles.lookup circleid with
  | none => db
  | some circle => db.setCircle circleid (change circle)

/-- The direct grants behind an update for the given users and circles. -/
def grantsAfter (action : Action) (userids circleids : List Int) (rights : List String)
    (grants : List (Target × String)) : List (Target × String) :=
  let given : List (Target × String) :=
    (userids.map (Kind.user, ·) ++ circleids.map (Kind.circle, ·)).flatMap (fun target =>
      rights.map (target, ·))
  match action with
  | .add => grants ++ given
  | .delete => grants.filter (fun grant => grant ∉ given)

variable (md5 : Acl → Md5)

def Access.step (access : Access) : Deed → Access
  | .createUser => { access with db := access.db.createUser }
  | .createCircle userMembers circleMembers =>
      { access with db := access.db.createCircle ⟨userMembers, circleMembers⟩ }
  | .setUserMembers circleid userMembers =>
      { access with db := access.db.changeCircle circleid fun circle =>
          { circle with userMembers := userMembers } }
  | .setCircleMembers circleid circleMembers =>
      { access with db := access.db.changeCircle circleid fun circle =>
          { circle with circleMembers := circleMembers } }
  | .rights action userids circleids rights =>
      let updating := final
        (rightsUpdate md5 (access.db.enough circleids) action userids rights)
        ⟨access.db, access.acl, circleids⟩
      { db := updating.db
        acl := updating.acl
        grants := grantsAfter action userids circleids rights access.grants }

/-! ### Who holds a right -/

/-- A circle holds what has been given to it, or to a circle that it is a
subcircle of. -/
def CircleHolds (db : Db) (grants : List (Target × String)) (circleid : Int) (right : String) :
    Prop :=
  ∃ granted, ((Kind.circle, granted), right) ∈ grants ∧ db.Reaches [granted] circleid

/-- A user holds what has been given to it, and what its circles hold. -/
def Access.Holds (access : Access) (userid : Int) (right : String) : Prop :=
  ((Kind.user, userid), right) ∈ access.grants ∨
    ∃ circleid circle, access.db.circles.lookup circleid = some circle ∧
      userid ∈ circle.userMembers ∧ CircleHolds access.db access.grants circleid right

/-- A check answers that the user holds each of the rights. -/
def Access.ChecksRightly (access : Access) (userid : Int) (rights : List String) : Prop :=
  rightsCheck access.db access.acl userid rights = .ok true ↔
    ∀ right ∈ rights, access.Holds userid right

/-- The rights are found in one place: with the user, or with one of its
circles.  Where none is asked for, there has to be such a place. -/
def Access.InOnePlace (access : Access) (userid : Int) (rights : List String) : Prop :=
  (∀ right ∈ rights, access.Holds userid right) →
    (access.acl.found (.user, userid) ≠ none ∧
      ∀ right ∈ rights, ((Kind.user, userid), right) ∈ access.grants) ∨
    ∃ circleid circle, access.db.circles.lookup circleid = some circle ∧
      userid ∈ circle.userMembers ∧ access.acl.found (.circle, circleid) ≠ none ∧
        ∀ right ∈ rights, CircleHolds access.db access.grants circleid right

/-- A change of the circles changes no right of a circle. -/
def KeepsInheritance (access : Access) (after : Db) : Prop :=
  ∀ circleid right,
    CircleHolds after access.grants circleid right ↔
      CircleHolds access.db access.grants circleid right

/-- What a deed has to keep. -/
def Access.Keeps (access : Access) : Deed → Prop
  | .createUser => True
  | .createCircle userMembers circleMembers =>
      KeepsInheritance access (access.db.createCircle ⟨userMembers, circleMembers⟩)
  | .setUserMembers _ _ => True
  | .setCircleMembers circleid circleMembers =>
      KeepsInheritance access (access.db.changeCircle circleid fun circle =>
        { circle with circleMembers := circleMembers })
  | .rights action _ circleids rights =>
      -- The circles exist, and the rights are texts that are stored as they are.
      (∀ circleid, access.db.Reaches circleids circleid →
        (access.db.circles.lookup circleid).isSome) ∧
      (∀ right ∈ rights, StringType.cleanText right = .str right) ∧
      -- What is deleted for a circle does not come from a circle beside the given ones too.
      (action = .delete → ∀ circleid, access.db.Reaches circleids circleid →
        ∀ right ∈ rights, ∀ granted, ((Kind.circle, granted), right) ∈ access.grants →
          access.db.Reaches [granted] circleid → granted ∈ circleids)

/-! ### The rights that are written out -/

/-- The records of the ACL have exactly the rights that are held. -/
structure Access.WrittenOut (access : Access) : Prop where
  users : ∀ userid right, .str right ∈ access.acl.rightsOf (.user, userid) ↔
    ((Kind.user, userid), right) ∈ access.grants
  circles : ∀ circleid right, .str right ∈ access.acl.rightsOf (.circle, circleid) ↔
    CircleHolds access.db access.grants circleid right
  stored : ∀ circleid, access.acl.found (.circle, circleid) ≠ none →
    (access.db.circles.lookup circleid).isSome
  clean : ∀ target, PyVal.none ∉ access.acl.rightsOf target
  nodup : ∀ target, (access.acl.rightsOf target).Nodup
  named : ∀ kind name, name ∈ access.db.names kind →
    ∃ id, access.acl.found (kind, id) ≠ none ∧ name = entryName kind access.acl id
  savable : Savable access.db access.acl

theorem writtenOut_start : Access.start.WrittenOut where
  users := by
    intro userid right
    exact ⟨fun member => absurd member List.not_mem_nil,
      fun member => absurd member List.not_mem_nil⟩
  circles := by
    intro circleid right
    constructor
    · intro member
      exact absurd member List.not_mem_nil
    · rintro ⟨granted, member, _⟩
      exact absurd member List.not_mem_nil
  stored := fun circleid found => absurd rfl found
  clean := fun target => by
    obtain ⟨kind, id⟩ := target
    cases kind <;> exact List.not_mem_nil
  nodup := fun target => by
    obtain ⟨kind, id⟩ := target
    cases kind <;> exact List.nodup_nil
  named := fun kind name member => by
    cases kind <;> exact absurd member List.not_mem_nil
  savable := ⟨by decide, fun row member => absurd member List.not_mem_nil⟩

/-- A change of users and circles keeps what is written out where it keeps
what is inherited. -/
theorem Access.WrittenOut.of_db {access : Access} (written : access.WrittenOut) {db : Db}
    (inherits : KeepsInheritance access db)
    (stored : ∀ circleid, (access.db.circles.lookup circleid).isSome →
      (db.circles.lookup circleid).isSome)
    (names : ∀ kind, db.names kind = access.db.names kind)
    (aclNames : db.aclNames = access.db.aclNames) :
    Access.WrittenOut { access with db := db } where
  users := written.users
  circles := fun circleid right =>
    (written.circles circleid right).trans (inherits circleid right).symm
  stored := fun circleid found => stored circleid (written.stored circleid found)
  clean := written.clean
  nodup := written.nodup
  named := fun kind name member => written.named kind name (names kind ▸ member)
  savable := by
    have savable := written.savable
    rwa [Savable, ← aclNames] at savable

theorem circleHolds_congr {db other : Db} (same : db.circleMembers = other.circleMembers)
    (grants : List (Target × String)) (circleid : Int) (right : String) :
    CircleHolds db grants circleid right ↔ CircleHolds other grants circleid right := by
  unfold CircleHolds Db.Reaches
  rw [same]

theorem changeCircle_stored (db : Db) (circleid : Int) (change : Circle → Circle) (other : Int)
    (stored : (db.circles.lookup other).isSome) :
    ((db.changeCircle circleid change).circles.lookup other).isSome := by
  rw [Db.changeCircle]
  split
  · exact stored
  · simp only [Db.setCircle, OrderedMap.lookup_insert]
    split
    · rfl
    · exact stored

theorem changeCircle_names (db : Db) (circleid : Int) (change : Circle → Circle) (kind : Kind) :
    (db.changeCircle circleid change).names kind = db.names kind := by
  rw [Db.changeCircle]
  split
  · rfl
  · cases kind <;> rfl

theorem changeCircle_aclNames (db : Db) (circleid : Int) (change : Circle → Circle) :
    (db.changeCircle circleid change).aclNames = db.aclNames := by
  rw [Db.changeCircle]
  split <;> rfl

/-- A change of the users of a circle changes no subcircles. -/
theorem circleMembers_setUserMembers (db : Db) (circleid : Int) (userMembers : List Int) :
    (db.changeCircle circleid fun circle => { circle with userMembers := userMembers }).circleMembers
      = db.circleMembers := by
  funext other
  rw [Db.changeCircle]
  split
  · rfl
  · rename_i circle stored
    simp only [Db.circleMembers, Db.setCircle, OrderedMap.lookup_insert]
    by_cases same : other = circleid
    · simp [same, stored]
    · simp [same]

/-! ### Rights are added and deleted -/

theorem mem_grantsAfter {action : Action} {userids circleids : List Int} {rights : List String}
    {grants : List (Target × String)} {target : Target} {right : String} :
    (target, right) ∈ grantsAfter action userids circleids rights grants ↔
      match action with
      | .add => (target, right) ∈ grants ∨
          target ∈ targetsOf userids circleids ∧ right ∈ rights
      | .delete => (target, right) ∈ grants ∧
          ¬ (target ∈ targetsOf userids circleids ∧ right ∈ rights) := by
  have given : (target, right) ∈ (targetsOf userids circleids).flatMap (fun target =>
      rights.map (target, ·)) ↔ target ∈ targetsOf userids circleids ∧ right ∈ rights := by
    simp only [List.mem_flatMap, List.mem_map]
    constructor
    · rintro ⟨other, listed, same, member, equal⟩
      cases equal
      exact ⟨listed, member⟩
    · rintro ⟨listed, member⟩
      exact ⟨target, listed, right, member, rfl⟩
  cases action with
  | add =>
      change (target, right) ∈ grants ++ _ ↔ _
      rw [List.mem_append]
      exact or_congr_right given
  | delete =>
      change (target, right) ∈ grants.filter _ ↔ _
      rw [List.mem_filter]
      exact and_congr_right fun _ => decide_eq_true_iff.trans (not_congr given)

section

variable {action : Action} {rights : List String} {held : List PyVal}

/-- Rights that are stored as they are bring nothing that is no text. -/
theorem none_not_mem_passes (plain : ∀ right ∈ rights, StringType.cleanText right = .str right)
    (clean : PyVal.none ∉ held) (times : Nat) : PyVal.none ∉ passes action rights times held := by
  intro member
  cases action with
  | add =>
      rcases mem_passes_add member with old | ⟨right, given, _, same⟩
      · exact clean old
      · rw [plain right given] at same
        cases same
  | delete => exact clean (Leads.remaining (leads_passes rights times held) member)

theorem heldAfter_nodup (plain : ∀ right ∈ rights, StringType.cleanText right = .str right)
    (nodup : held.Nodup) {right : String} (given : right ∈ rights) :
    (heldAfter action held right).Nodup := by
  cases action with
  | add =>
      by_cases listed : PyVal.str right ∈ held
      · simpa [heldAfter, listed] using nodup
      · have appended : heldAfter .add held right = held ++ [.str right] := by
          simp [heldAfter, listed, plain right given]
        rw [appended]
        refine List.Nodup.append nodup (List.nodup_singleton _) ?_
        simpa using listed
  | delete => exact nodup.erase _

theorem updateHeld_nodup (plain : ∀ right ∈ rights, StringType.cleanText right = .str right)
    (nodup : held.Nodup) : (updateHeld action rights held).Nodup := by
  induction rights generalizing held with
  | nil => exact nodup
  | cons right rights induction =>
      refine induction (fun other listed => plain other (List.mem_cons_of_mem _ listed)) ?_
      exact heldAfter_nodup plain nodup List.mem_cons_self

theorem passes_nodup (plain : ∀ right ∈ rights, StringType.cleanText right = .str right)
    (nodup : held.Nodup) (times : Nat) : (passes action rights times held).Nodup := by
  induction times generalizing held with
  | zero => exact nodup
  | succ times induction => exact induction (updateHeld_nodup plain nodup)

/-- Of rights that are listed once one loop is enough. -/
theorem fits_of_nodup (plain : ∀ right ∈ rights, StringType.cleanText right = .str right)
    (nodup : held.Nodup) : Fits action rights 1 held := by
  cases action with
  | add => exact fun right given => .inr (plain right given)
  | delete =>
      intro right given
      have once := List.nodup_iff_count_le_one.mp nodup (.str right)
      have positive := List.count_pos_iff.mpr given
      omega

end

/-- The given targets of a written-out ACL can be written. -/
theorem Access.WrittenOut.free {access : Access} (written : access.WrittenOut) {action : Action}
    {rights : List String} (plain : ∀ right ∈ rights, StringType.cleanText right = .str right)
    (circleids : List Int) (target : Target) :
    Free action rights ⟨access.db, access.acl, circleids⟩ target := by
  constructor
  · exact none_not_mem_passes plain (written.clean target) 1
  · intro none taken
    obtain ⟨id, found, same⟩ := written.named target.1 _ taken
    have ids := entryName_injective same
    rw [← ids] at found
    exact found none

/-- What the targets of an update hold behind it. -/
theorem mem_rightsOf_reached {action : Action} {rights : List String} {targets : List Target}
    {updating reached : Updating} {changed : Bool}
    (run : Reached action rights updating targets false reached changed)
    (fits : ∀ target ∈ targets, Fits action rights 1 (updating.acl.rightsOf target))
    (target : Target) (value : PyVal) :
    value ∈ (aclSaved (withMd5 md5 reached)).acl.rightsOf target ↔
      if target ∈ targets then Wanted action rights (updating.acl.rightsOf target) value
      else value ∈ updating.acl.rightsOf target := by
  have granted := granted_of_reached md5 (fun _ => Iff.rfl) run fun target listed =>
    (fits target listed).more (List.count_pos_iff.mpr listed)
  by_cases listed : target ∈ targets
  · obtain ⟨entry, found, wanted⟩ := granted.reached target listed
    rw [if_pos listed, Acl.rightsOf_of_found found]
    exact wanted value
  · rw [if_neg listed, rightsOf_congr (granted.others target listed)]

/-- A right behind an update, by the right before it. -/
theorem wanted_or_held_iff {action : Action} {rights : List String} {held : List PyVal}
    {given : Prop} [Decidable given] (right : String) :
    (if given then Wanted action rights held (.str right) else .str right ∈ held) ↔
      match action with
      | .add => .str right ∈ held ∨ given ∧ right ∈ rights
      | .delete => .str right ∈ held ∧ ¬ (given ∧ right ∈ rights) := by
  cases action <;> by_cases holds : given <;> simp [Wanted, holds, List.forall_mem_ne]

/-- An added right is inherited from the circles that have it. -/
theorem circleHolds_add {db : Db} {userids circleids : List Int} {rights : List String}
    {grants : List (Target × String)} {circleid : Int} {right : String} :
    CircleHolds db (grantsAfter .add userids circleids rights grants) circleid right ↔
      CircleHolds db grants circleid right ∨
        db.Reaches circleids circleid ∧ right ∈ rights := by
  constructor
  · rintro ⟨granted, member, path⟩
    rcases mem_grantsAfter.mp member with old | ⟨target, given⟩
    · exact .inl ⟨granted, old, path⟩
    · rcases mem_targetsOf.mp target with ⟨impossible, _⟩ | ⟨_, listed⟩
      · cases impossible
      · obtain ⟨start, same, path⟩ := path
        rw [List.mem_singleton.mp same] at path
        exact .inr ⟨⟨granted, listed, path⟩, given⟩
  · rintro (⟨granted, old, path⟩ | ⟨⟨start, listed, path⟩, given⟩)
    · exact ⟨granted, mem_grantsAfter.mpr (.inl old), path⟩
    · exact ⟨start, mem_grantsAfter.mpr (.inr ⟨mem_targetsOf.mpr (.inr ⟨rfl, listed⟩), given⟩),
        start, List.mem_singleton_self start, path⟩

/-- A deleted right is gone where it came from the given circles only. -/
theorem circleHolds_delete {db : Db} {userids circleids : List Int} {rights : List String}
    {grants : List (Target × String)}
    (only : ∀ circleid, db.Reaches circleids circleid → ∀ right ∈ rights, ∀ granted,
      ((Kind.circle, granted), right) ∈ grants → db.Reaches [granted] circleid →
        granted ∈ circleids) {circleid : Int} {right : String} :
    CircleHolds db (grantsAfter .delete userids circleids rights grants) circleid right ↔
      CircleHolds db grants circleid right ∧
        ¬ (db.Reaches circleids circleid ∧ right ∈ rights) := by
  constructor
  · rintro ⟨granted, member, path⟩
    obtain ⟨old, kept⟩ := mem_grantsAfter.mp member
    refine ⟨⟨granted, old, path⟩, ?_⟩
    rintro ⟨reached, given⟩
    have listed := only circleid reached right given granted old path
    exact kept ⟨mem_targetsOf.mpr (.inr ⟨rfl, listed⟩), given⟩
  · rintro ⟨⟨granted, old, path⟩, kept⟩
    refine ⟨granted, mem_grantsAfter.mpr ⟨old, ?_⟩, path⟩
    rintro ⟨target, given⟩
    rcases mem_targetsOf.mp target with ⟨impossible, _⟩ | ⟨_, listed⟩
    · cases impossible
    · obtain ⟨start, same, path⟩ := path
      rw [List.mem_singleton.mp same] at path
      exact kept ⟨⟨granted, listed, path⟩, given⟩

theorem savable_aclSaved {updating : Updating} (savable : Savable updating.db updating.acl) :
    Savable (aclSaved (withMd5 md5 updating)).db (aclSaved (withMd5 md5 updating)).acl := by
  obtain ⟨db, acl, circleids⟩ := updating
  obtain ⟨named, alone⟩ := savable
  refine ⟨named, ?_⟩
  intro row listed same
  have stored := OrderedMap.lookup_eq_some_iff.mpr listed
  have inserted : (db.aclNames.insert (acl.id.getD (db.lastId + 1)) acl.name).lookup row.1 =
      some row.2 := stored
  rw [OrderedMap.lookup_insert] at inserted
  split at inserted
  · rename_i own
    exact congrArg some own
  · rename_i other
    have before := alone row (OrderedMap.lookup_eq_some_iff.mp inserted) same
    rw [← before] at other
    exact absurd rfl other

/-- Adding and deleting rights keeps what is written out. -/
theorem Access.WrittenOut.rights {access : Access} (written : access.WrittenOut)
    {action : Action} {userids circleids : List Int} {rights : List String}
    (keeps : access.Keeps (.rights action userids circleids rights)) :
    (access.step md5 (.rights action userids circleids rights)).WrittenOut := by
  obtain ⟨exist, plain, only⟩ := keeps
  have free : ∀ target, Given access.db userids circleids target →
      Free action rights ⟨access.db, access.acl, circleids⟩ target := fun target _ =>
    written.free plain circleids target
  obtain ⟨targets, changed, reached, member, done, run⟩ := rightsUpdate_reached md5
    (Nat.le_refl (access.db.enough circleids)) exist written.savable free
  have behind : access.step md5 (.rights action userids circleids rights) =
      { db := (aclSaved (withMd5 md5 { reached with circleids := [] })).db
        acl := (aclSaved (withMd5 md5 { reached with circleids := [] })).acl
        grants := grantsAfter action userids circleids rights access.grants } := by
    simp only [Access.step, final_of_ok done]
  have held := mem_rightsOf_reached md5 run fun target _ =>
    fits_of_nodup plain (written.nodup target)
  have found := fun target => (aclSaved_found md5 { reached with circleids := [] } target).trans
    (run.found target)
  have circles : (aclSaved (withMd5 md5 { reached with circleids := [] })).db.circles =
      access.db.circles := run.circles
  have circleMembers :
      (aclSaved (withMd5 md5 { reached with circleids := [] })).db.circleMembers =
        access.db.circleMembers := by
    funext circleid
    rw [Db.circleMembers, Db.circleMembers, circles]
  -- The list of a target is what it was, or what the loops have made of it.
  have lists (target : Target) :
      (aclSaved (withMd5 md5 { reached with circleids := [] })).acl.rightsOf target =
        if target ∈ targets then
          passes action rights (targets.count target) (access.acl.rightsOf target)
        else access.acl.rightsOf target := by
    by_cases listed : target ∈ targets
    · rw [if_pos listed]
      exact Acl.rightsOf_of_found ((found target).trans (if_pos listed))
    · rw [if_neg listed]
      exact rightsOf_congr ((found target).trans (if_neg listed))
  rw [behind]
  constructor
  case users =>
    intro userid right
    refine (held (.user, userid) (.str right)).trans ?_
    have given : (Kind.user, userid) ∈ targets ↔ (Kind.user, userid) ∈ targetsOf userids circleids :=
      (member _).symm.trans (by simp [Given, mem_targetsOf])
    rw [wanted_or_held_iff, mem_grantsAfter]
    cases action with
    | add => exact or_congr (written.users userid right) (and_congr_left' given)
    | delete => exact and_congr (written.users userid right) (not_congr (and_congr_left' given))
  case circles =>
    intro circleid right
    refine (held (.circle, circleid) (.str right)).trans ?_
    have given : (Kind.circle, circleid) ∈ targets ↔ access.db.Reaches circleids circleid :=
      (member _).symm
    rw [wanted_or_held_iff]
    refine Iff.trans ?_ (circleHolds_congr circleMembers _ circleid right).symm
    cases action with
    | add =>
        rw [circleHolds_add]
        exact or_congr (written.circles circleid right) (and_congr_left' given)
    | delete =>
        rw [circleHolds_delete (only rfl)]
        exact and_congr (written.circles circleid right) (not_congr (and_congr_left' given))
  case stored =>
    intro circleid entered
    rw [circles]
    by_cases listed : (Kind.circle, circleid) ∈ targets
    · exact exist circleid ((member _).mpr listed)
    · rw [found, if_neg listed] at entered
      exact written.stored circleid entered
  case clean =>
    intro target
    rw [lists]
    split
    · exact none_not_mem_passes plain (written.clean target) _
    · exact written.clean target
  case nodup =>
    intro target
    rw [lists]
    split
    · exact passes_nodup plain (written.nodup target) _
    · exact written.nodup target
  case named =>
    intro kind name listed
    have same (id : Int) : entryName kind (aclSaved (withMd5 md5
        { reached with circleids := [] })).acl id = entryName kind access.acl id := by
      have name : (aclSaved (withMd5 md5 { reached with circleids := [] })).acl.name =
        access.acl.name := run.name
      rw [entryName, entryName, name]
    have taken : name ∈ reached.db.names kind := by
      cases kind <;> exact listed
    rcases run.names kind name taken with before | ⟨target, inside, own, spelled⟩
    · obtain ⟨id, entered, spelled⟩ := written.named kind name before
      refine ⟨id, ?_, spelled.trans (same id).symm⟩
      rw [found]
      split
      · exact Option.some_ne_none _
      · exact entered
    · subst own
      refine ⟨target.2, ?_, spelled.trans (same target.2).symm⟩
      rw [found, if_pos inside]
      exact Option.some_ne_none _
  case savable => exact savable_aclSaved md5 ((Savable.of_reached run).mpr written.savable)

/-- Every deed that keeps what is inherited keeps what is written out. -/
theorem Access.WrittenOut.step {access : Access} (written : access.WrittenOut) (deed : Deed)
    (keeps : access.Keeps deed) : (access.step md5 deed).WrittenOut := by
  cases deed with
  | createUser =>
      refine written.of_db (fun _ _ => Iff.rfl) (fun _ stored => stored) ?_ rfl
      intro kind
      cases kind <;> rfl
  | createCircle userMembers circleMembers =>
      refine written.of_db keeps ?_ ?_ rfl
      · intro circleid stored
        have lookup := OrderedMap.lookup_insert access.db.circles
          ((access.db.lastId + 1 : Nat) : Int) circleid ⟨userMembers, circleMembers⟩
        change ((access.db.circles.insert _ _).lookup circleid).isSome = true
        rw [lookup]
        split
        · rfl
        · exact stored
      · intro kind
        cases kind <;> rfl
  | setUserMembers circleid userMembers =>
      refine written.of_db ?_ (changeCircle_stored _ _ _) (changeCircle_names _ _ _)
        (changeCircle_aclNames _ _ _)
      intro other right
      exact circleHolds_congr (circleMembers_setUserMembers _ _ _) _ other right
  | setCircleMembers circleid circleMembers =>
      exact written.of_db keeps (changeCircle_stored _ _ _) (changeCircle_names _ _ _)
        (changeCircle_aclNames _ _ _)
  | rights action userids circleids rights => exact written.rights md5 keeps

/-! ### Checks -/

theorem compareRights_iff {aclRights : List PyVal} {rights : List String} :
    compareRights aclRights rights = true ↔ ∀ right ∈ rights, .str right ∈ aclRights := by
  simp [compareRights]

/-- The loop over the circles asks each of them for all of the rights. -/
theorem userHasRights_eq_true_iff {db : Db} {userid : Int} {rights : List String}
    {entries : List Entry} (stored : ∀ entry ∈ entries, (db.circles.lookup entry.id).isSome) :
    userHasRights db userid rights entries = .ok true ↔
      ∃ entry ∈ entries, ∃ circle, db.circles.lookup entry.id = some circle ∧
        userid ∈ circle.userMembers ∧ ∀ right ∈ rights, .str right ∈ entry.rights := by
  induction entries with
  | nil => simp [userHasRights]
  | cons entry entries induction =>
      obtain ⟨here, later⟩ := List.forall_mem_cons.mp stored
      obtain ⟨circle, found⟩ := Option.isSome_iff_exists.mp here
      simp only [userHasRights, found]
      by_cases has : compareRights entry.rights rights ∧ userid ∈ circle.userMembers
      · rw [if_pos has]
        refine iff_of_true rfl ⟨entry, List.mem_cons_self, circle, found, has.2, ?_⟩
        exact compareRights_iff.mp has.1
      · rw [if_neg has, induction later]
        constructor
        · rintro ⟨other, listed, holds⟩
          exact ⟨other, List.mem_cons_of_mem _ listed, holds⟩
        · rintro ⟨other, listed, circle', found', member, holds⟩
          rcases List.mem_cons.mp listed with same | later'
          · subst same
            rw [found] at found'
            cases found'
            exact absurd ⟨compareRights_iff.mpr holds, member⟩ has
          · exact ⟨other, later', circle', found', member, holds⟩

theorem Entries.find_eq_some_iff {entries : Entries} {entry : Entry} :
    entries.find entry.id = some entry ↔ entry ∈ entries.list := by
  constructor
  · exact List.mem_of_find?_eq_some
  · intro listed
    obtain ⟨list, nodup⟩ := entries
    change list.find? _ = _
    induction list with
    | nil => cases listed
    | cons first rest induction =>
        rw [List.map_cons, List.nodup_cons] at nodup
        rcases List.mem_cons.mp listed with same | later
        · rw [same, List.find?_cons_of_pos (by simp)]
        · have different : ¬ first.id = entry.id := by
            intro same
            exact nodup.1 (List.mem_map.mpr ⟨entry, later, same.symm⟩)
          rw [List.find?_cons_of_neg (by simpa using different)]
          exact induction nodup.2 later

/-- A check finds the rights in one place. -/
theorem rightsCheck_eq_true_iff {access : Access} (written : access.WrittenOut) {userid : Int}
    (exists' : userid ∈ access.db.users) (rights : List String) :
    rightsCheck access.db access.acl userid rights = .ok true ↔
      (access.acl.found (.user, userid) ≠ none ∧
        ∀ right ∈ rights, ((Kind.user, userid), right) ∈ access.grants) ∨
      ∃ circleid circle, access.db.circles.lookup circleid = some circle ∧
        userid ∈ circle.userMembers ∧ access.acl.found (.circle, circleid) ≠ none ∧
          ∀ right ∈ rights, CircleHolds access.db access.grants circleid right := by
  have direct : (access.acl.users.list.any (fun aclUser =>
      aclUser.id = userid && compareRights aclUser.rights rights)) = true ↔
      access.acl.found (.user, userid) ≠ none ∧
        ∀ right ∈ rights, ((Kind.user, userid), right) ∈ access.grants := by
    rw [List.any_eq_true]
    constructor
    · rintro ⟨entry, listed, own⟩
      have both : entry.id = userid ∧ compareRights entry.rights rights = true := by
        simpa using own
      have found : access.acl.found (.user, userid) = some entry := by
        rw [← both.1]
        exact Entries.find_eq_some_iff.mpr listed
      refine ⟨by simp [found], ?_⟩
      intro right given
      rw [← written.users, Acl.rightsOf_of_found found]
      exact compareRights_iff.mp both.2 right given
    · rintro ⟨entered, granted⟩
      obtain ⟨entry, found⟩ := Option.ne_none_iff_exists'.mp entered
      have id : entry.id = userid := Entries.id_of_find found
      have listed : entry ∈ access.acl.users.list := List.mem_of_find?_eq_some found
      refine ⟨entry, listed, ?_⟩
      have compared : compareRights entry.rights rights = true := by
        rw [compareRights_iff]
        intro right given
        rw [← Acl.rightsOf_of_found found]
        exact (written.users userid right).mpr (granted right given)
      simp [id, compared]
  have stored : ∀ entry ∈ access.acl.circles.list,
      (access.db.circles.lookup entry.id).isSome := by
    intro entry listed
    apply written.stored
    have found : access.acl.found (.circle, entry.id) = some entry :=
      Entries.find_eq_some_iff.mpr listed
    simp [found]
  have inherited : userHasRights access.db userid rights access.acl.circles.list = .ok true ↔
      ∃ circleid circle, access.db.circles.lookup circleid = some circle ∧
        userid ∈ circle.userMembers ∧ access.acl.found (.circle, circleid) ≠ none ∧
          ∀ right ∈ rights, CircleHolds access.db access.grants circleid right := by
    rw [userHasRights_eq_true_iff stored]
    constructor
    · rintro ⟨entry, listed, circle, lookup, member, holds⟩
      have found : access.acl.found (.circle, entry.id) = some entry :=
        Entries.find_eq_some_iff.mpr listed
      refine ⟨entry.id, circle, lookup, member, by simp [found], ?_⟩
      intro right given
      rw [← written.circles, Acl.rightsOf_of_found found]
      exact holds right given
    · rintro ⟨circleid, circle, lookup, member, entered, holds⟩
      obtain ⟨entry, found⟩ := Option.ne_none_iff_exists'.mp entered
      have id : entry.id = circleid := Entries.id_of_find found
      refine ⟨entry, List.mem_of_find?_eq_some found, circle, id ▸ lookup, member, ?_⟩
      intro right given
      rw [← Acl.rightsOf_of_found found]
      exact (written.circles circleid right).mpr (holds right given)
  rw [rightsCheck, if_pos exists', ← inherited, ← direct]
  split
  · rename_i has
    exact iff_of_true rfl (.inl has)
  · rename_i has
    exact (or_iff_right has).symm

/-- Along a history that keeps what is inherited, a check means that every
right is held exactly when the rights are found in one place. -/
theorem check_means_holding_iff (history : List Deed)
    (keeps : Along Access.Keeps (Access.step md5) .start history) (userid : Int)
    (exists' : userid ∈ (Runs.run (Access.step md5) .start history).db.users)
    (rights : List String) :
    (Runs.run (Access.step md5) .start history).ChecksRightly userid rights ↔
      (Runs.run (Access.step md5) .start history).InOnePlace userid rights := by
  have written : (Runs.run (Access.step md5) .start history).WrittenOut :=
    Runs.run_keeps Access.WrittenOut (fun _ deed written keeps => written.step md5 deed keeps)
      writtenOut_start keeps
  rw [Access.ChecksRightly, rightsCheck_eq_true_iff written exists', Access.InOnePlace]
  refine ⟨Iff.mpr, fun found => ⟨?_, found⟩⟩
  rintro (⟨_, granted⟩ | ⟨circleid, circle, stored, member, _, holds⟩) right given
  · exact .inl (granted right given)
  · exact .inr ⟨circleid, circle, stored, member, holds right given⟩

/-- A user in a circle that can read. -/
def readers : List Deed :=
  [.createUser, .createCircle [1] [], .rights .add [] [2] ["r"]]

theorem readers_keep (md5 : Acl → Md5) :
    Along Access.Keeps (Access.step md5) .start readers := by
  refine ⟨trivial, ?_, ⟨?_, ?_, ?_⟩, trivial⟩
  · intro circleid right
    exact iff_of_false (fun ⟨_, member, _⟩ => absurd member List.not_mem_nil)
      (fun ⟨_, member, _⟩ => absurd member List.not_mem_nil)
  · rintro circleid ⟨start, listed, path⟩
    cases List.mem_singleton.mp listed
    -- The circle has no members, so nothing else is reached.
    rcases path.cases_head with same | ⟨next, follows, _⟩
    · subst same
      rfl
    · exact absurd follows List.not_mem_nil
  · decide
  · intro impossible
    cases impossible

theorem check_means_holding_iff_readers :
    (Runs.run (Access.step fun _ => "") .start readers).ChecksRightly 1 ["r"] ↔
      (Runs.run (Access.step fun _ => "") .start readers).InOnePlace 1 ["r"] :=
  check_means_holding_iff _ readers (readers_keep _) 1 (by decide) ["r"]

/-- A user that can read, in a circle that can write. -/
def readerAmongWriters : List Deed :=
  [.createUser, .createCircle [1] [], .rights .add [1] [] ["r"], .rights .add [] [2] ["w"]]

/-- No record has both of the rights that the user holds. -/
theorem not_checksRightly_readerAmongWriters :
    ¬ (Runs.run (Access.step fun _ => "") .start readerAmongWriters).ChecksRightly 1
      ["r", "w"] := by
  intro rightly
  have holds : ∀ right ∈ ["r", "w"],
      (Runs.run (Access.step fun _ => "") .start readerAmongWriters).Holds 1 right := by
    intro right given
    rcases List.mem_cons.mp given with read | write
    · subst read
      exact .inl (by decide)
    · rw [List.mem_singleton.mp write]
      exact .inr ⟨2, ⟨[1], []⟩, rfl, by decide, 2, by decide, 2, by decide, .refl⟩
  have answer := rightly.mpr holds
  have refused : (rightsCheck
      (Runs.run (Access.step fun _ => "") .start readerAmongWriters).db
      (Runs.run (Access.step fun _ => "") .start readerAmongWriters).acl 1 ["r", "w"]).toOption =
        some false := by decide
  rw [answer] at refused
  cases refused

end ACL

end JumpscaleX
