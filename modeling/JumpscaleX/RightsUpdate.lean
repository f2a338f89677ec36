import JumpscaleX.HeldRights
import JumpscaleX.Library.TextBytes

/-!
# Updates of rights reach the circle closure

`_rights_update` works on one user or circle after the other.  What it does to
a list of them depends only on how often each of them occurs, and the circles
that it comes to are those that can be reached along `circle_members`.
-/

namespace JumpscaleX

open Stateful

namespace ACL

/-- A user or a circle. -/
abbrev Target := Kind × Int

def Acl.found (acl : Acl) (target : Target) : Option Entry :=
  (acl.entries target.1).find target.2

def Acl.rightsOf (acl : Acl) (target : Target) : List PyVal :=
  (acl.entries target.1).rightsOf target.2

theorem Acl.rightsOf_of_found {acl : Acl} {target : Target} {entry : Entry}
    (found : acl.found target = some entry) : acl.rightsOf target = entry.rights := by
  have inside : (acl.entries target.1).find target.2 = some entry := found
  rw [rightsOf, Entries.rightsOf, inside]
  rfl

theorem Acl.rightsOf_of_none {acl : Acl} {target : Target} (none : acl.found target = .none) :
    acl.rightsOf target = [] := by
  have inside : (acl.entries target.1).find target.2 = .none := none
  rw [rightsOf, Entries.rightsOf, inside]
  rfl

theorem Acl.found_put (acl : Acl) (kind : Kind) (entry : Entry) (target : Target) :
    (acl.put kind entry).found target =
      if target = (kind, entry.id) then some entry else acl.found target := by
  obtain ⟨other, id⟩ := target
  cases kind <;> cases other <;> simp [found, put, entries, Entries.find_put]

theorem entryName_injective {kind : Kind} {acl : Acl} {left right : Int}
    (same : entryName kind acl left = entryName kind acl right) : left = right := by
  apply TextBytes.toString_int_injective
  have chars := congrArg String.toList same
  simp only [entryName, String.toList_append] at chars
  exact String.toList_inj.mp (List.append_cancel_left chars)

@[simp] theorem Db.names_lastId (db : Db) (id : Nat) (kind : Kind) :
    { db with lastId := id }.names kind = db.names kind := by
  cases kind <;> rfl

/-! ### One user or circle -/

section

variable {action : Action} {rights : List String}

/-- The record of the target can be written. -/
def Free (action : Action) (rights : List String) (updating : Updating) (target : Target) :
    Prop :=
  PyVal.none ∉ updateHeld action rights (updating.acl.rightsOf target) ∧
    (updating.acl.found target = none →
      entryName target.1 updating.acl target.2 ∉ updating.db.names target.1)

/-- The database with a new record for the target. -/
def registered (updating : Updating) (target : Target) : Db :=
  { updating.db with lastId := updating.db.lastId + 1 }.addName target.1
    (entryName target.1 updating.acl target.2)

/-- The state behind the update of a target. -/
def entryUpdated (action : Action) (rights : List String) (updating : Updating)
    (target : Target) : Updating :=
  { updating with
    db := if updating.acl.found target = none then registered updating target else updating.db
    acl := updating.acl.put target.1
      ⟨target.2, updateHeld action rights (updating.acl.rightsOf target)⟩ }

theorem updateEntry_of_free {updating : Updating} {target : Target} (changed : Bool)
    (free : Free action rights updating target) :
    updateEntry target.1 action rights changed target.2 updating =
      .ok (changed || decide (updating.acl.found target = none ∨
        updateHeld action rights (updating.acl.rightsOf target) ≠ updating.acl.rightsOf target))
        (entryUpdated action rights updating target) := by
  obtain ⟨clean, unnamed⟩ := free
  cases found : updating.acl.found target with
  | some entry =>
      have inside : (updating.acl.entries target.1).find target.2 = some entry := found
      have held := Acl.rightsOf_of_found found
      rw [held] at clean ⊢
      have id := Entries.id_of_find inside
      simp only [updateEntry, get_seq, inside, foldl_updateRight, modify_seq]
      simp [entryUpdated, saveEntry, clean, found, held, id, bind, EStateM.bind, pure,
        EStateM.pure]
  | none =>
      have inside : (updating.acl.entries target.1).find target.2 = none := found
      have held := Acl.rightsOf_of_none found
      have new := unnamed found
      rw [held] at clean ⊢
      have saved : saveEntry target.1 (entryName target.1 updating.acl target.2)
          ⟨target.2, updateHeld action rights []⟩ true updating =
            .ok () { updating with db := registered updating target } := by
        simp [saveEntry, clean, new, registered]
      simp only [updateEntry, get_seq, inside, foldl_updateRight]
      rw [seq_of_ok saved, modify_seq]
      simp [entryUpdated, found, held, pure, EStateM.pure]

theorem updateEntry_of_not_free {updating : Updating} {target : Target} (changed : Bool)
    (stuck : ¬ Free action rights updating target) :
    ∃ problem failed, updateEntry target.1 action rights changed target.2 updating =
      .error problem failed := by
  cases found : updating.acl.found target with
  | some entry =>
      have inside : (updating.acl.entries target.1).find target.2 = some entry := found
      have dirty : PyVal.none ∈ updateHeld action rights entry.rights := by
        by_contra clean
        rw [← Acl.rightsOf_of_found found] at clean
        exact stuck ⟨clean, fun none => absurd none (by simp [found])⟩
      simp only [updateEntry, get_seq, inside, foldl_updateRight, modify_seq]
      exact ⟨_, _, seq_of_error (by simp [saveEntry, dirty]; exact ⟨rfl, rfl⟩)⟩
  | none =>
      have inside : (updating.acl.entries target.1).find target.2 = none := found
      simp only [updateEntry, get_seq, inside, foldl_updateRight]
      by_cases dirty : PyVal.none ∈ updateHeld action rights []
      · exact ⟨_, _, seq_of_error (by simp [saveEntry, dirty]; exact ⟨rfl, rfl⟩)⟩
      · have taken : entryName target.1 updating.acl target.2 ∈ updating.db.names target.1 := by
          by_contra new
          rw [← Acl.rightsOf_of_none found] at dirty
          exact stuck ⟨dirty, fun _ => new⟩
        exact ⟨_, _, seq_of_error (by simp [saveEntry, dirty, taken]; exact ⟨rfl, rfl⟩)⟩

theorem entryUpdated_found (updating : Updating) (target other : Target) :
    (entryUpdated action rights updating target).acl.found other =
      if other = target then
        some ⟨target.2, updateHeld action rights (updating.acl.rightsOf target)⟩
      else updating.acl.found other :=
  Acl.found_put updating.acl target.1 _ other

theorem entryUpdated_rightsOf (updating : Updating) (target : Target) :
    (entryUpdated action rights updating target).acl.rightsOf target =
      updateHeld action rights (updating.acl.rightsOf target) := by
  have found : (entryUpdated action rights updating target).acl.found target =
      some ⟨target.2, updateHeld action rights (updating.acl.rightsOf target)⟩ := by
    rw [entryUpdated_found, if_pos rfl]
  exact Acl.rightsOf_of_found found

theorem rightsOf_congr {acl other : Acl} {target : Target}
    (same : other.found target = acl.found target) : other.rightsOf target = acl.rightsOf target := by
  have inside : (other.entries target.1).find target.2 = (acl.entries target.1).find target.2 :=
    same
  rw [Acl.rightsOf, Entries.rightsOf, inside]
  rfl

theorem mem_names_registered {updating : Updating} {target : Target} {kind : Kind}
    {name : String} :
    name ∈ (registered updating target).names kind ↔
      name ∈ updating.db.names kind ∨
        kind = target.1 ∧ name = entryName target.1 updating.acl target.2 := by
  obtain ⟨other, id⟩ := target
  cases kind <;> cases other <;> simp [registered, Db.addName, Db.names, or_comm]

theorem entryName_put (acl : Acl) (kind other : Kind) (entry : Entry) (id : Int) :
    entryName other (acl.put kind entry) id = entryName other acl id := by
  cases kind <;> rfl

/-- The names behind the update of a target. -/
theorem mem_names_entryUpdated {updating : Updating} {target : Target} {kind : Kind}
    {name : String} :
    name ∈ (entryUpdated action rights updating target).db.names kind ↔
      name ∈ updating.db.names kind ∨ updating.acl.found target = none ∧
        kind = target.1 ∧ name = entryName target.1 updating.acl target.2 := by
  by_cases new : updating.acl.found target = none
  · simp [entryUpdated, new, mem_names_registered]
  · simp [entryUpdated, new]

/-- The update of one target leaves the others as free as they were. -/
theorem free_entryUpdated_of_ne {updating : Updating} {target other : Target}
    (different : other ≠ target) :
    Free action rights (entryUpdated action rights updating target) other ↔
      Free action rights updating other := by
  have found : (entryUpdated action rights updating target).acl.found other =
      updating.acl.found other := by
    rw [entryUpdated_found, if_neg different]
  have name : entryName other.1 (entryUpdated action rights updating target).acl other.2 =
      entryName other.1 updating.acl other.2 := entryName_put _ _ _ _ _
  have named : entryName other.1 updating.acl other.2 ∈
      (entryUpdated action rights updating target).db.names other.1 ↔
        entryName other.1 updating.acl other.2 ∈ updating.db.names other.1 := by
    rw [mem_names_entryUpdated]
    refine or_iff_left ?_
    rintro ⟨_, kind, same⟩
    apply different
    rw [← kind] at same
    exact Prod.ext kind (entryName_injective same)
  rw [Free, Free, rightsOf_congr found, found, name, named]

/-- A target that was free stays free behind its own update. -/
theorem free_entryUpdated_self {updating : Updating} {target : Target}
    (free : Free action rights updating target) :
    Free action rights (entryUpdated action rights updating target) target := by
  constructor
  · rw [entryUpdated_rightsOf]
    exact none_not_mem_again free.1
  · intro none
    rw [entryUpdated_found, if_pos rfl] at none
    cases none

/-! ### A list of users and circles -/

/-- One target after the other. -/
def updateAll (action : Action) (rights : List String) (changed : Bool)
    (targets : List Target) : UpdateM Bool :=
  targets.foldlM (fun changed target => updateEntry target.1 action rights changed target.2)
    changed

/-- What a list of targets leads to. -/
structure Reached (action : Action) (rights : List String) (updating : Updating)
    (targets : List Target) (changed : Bool) (reached : Updating) (after : Bool) : Prop where
  found : ∀ target, reached.acl.found target =
    if target ∈ targets then
      some ⟨target.2, passes action rights (targets.count target)
        (updating.acl.rightsOf target)⟩
    else updating.acl.found target
  changes : after = true ↔ changed = true ∨ ∃ target ∈ targets,
    updating.acl.found target = none ∨
      passes action rights (targets.count target) (updating.acl.rightsOf target) ≠
        updating.acl.rightsOf target
  users : reached.db.users = updating.db.users
  circles : reached.db.circles = updating.db.circles
  acls : reached.db.acls = updating.db.acls
  aclNames : reached.db.aclNames = updating.db.aclNames
  names : ∀ kind name, name ∈ reached.db.names kind → name ∈ updating.db.names kind ∨
    ∃ target ∈ targets, kind = target.1 ∧ name = entryName target.1 updating.acl target.2
  id : reached.acl.id = updating.acl.id
  name : reached.acl.name = updating.acl.name
  md5 : reached.acl.md5 = updating.acl.md5
  circleids : reached.circleids = updating.circleids

theorem reached_nil (updating : Updating) (changed : Bool) :
    Reached action rights updating [] changed updating changed where
  found := by simp
  changes := by simp
  users := rfl
  circles := rfl
  acls := rfl
  aclNames := rfl
  names := fun _ _ named => .inl named
  id := rfl
  name := rfl
  md5 := rfl
  circleids := rfl

theorem registered_frame (updating : Updating) (target : Target) :
    (registered updating target).users = updating.db.users ∧
      (registered updating target).circles = updating.db.circles ∧
      (registered updating target).acls = updating.db.acls ∧
      (registered updating target).aclNames = updating.db.aclNames := by
  obtain ⟨kind, id⟩ := target
  cases kind <;> exact ⟨rfl, rfl, rfl, rfl⟩

theorem entryUpdated_frame (action : Action) (rights : List String) (updating : Updating)
    (target : Target) :
    (entryUpdated action rights updating target).db.users = updating.db.users ∧
      (entryUpdated action rights updating target).db.circles = updating.db.circles ∧
      (entryUpdated action rights updating target).db.acls = updating.db.acls ∧
      (entryUpdated action rights updating target).db.aclNames = updating.db.aclNames := by
  by_cases new : updating.acl.found target = none
  · simp only [entryUpdated, new, if_true]
    exact registered_frame updating target
  · simp [entryUpdated, new]

theorem put_frame (acl : Acl) (kind : Kind) (entry : Entry) :
    (acl.put kind entry).id = acl.id ∧ (acl.put kind entry).name = acl.name ∧
      (acl.put kind entry).md5 = acl.md5 := by
  cases kind <;> exact ⟨rfl, rfl, rfl⟩

/-- A target in front of a list. -/
theorem Reached.cons {updating reached : Updating} {target : Target} {targets : List Target}
    {changed after : Bool}
    (rest : Reached action rights (entryUpdated action rights updating target) targets
      (changed || decide (updating.acl.found target = none ∨
        updateHeld action rights (updating.acl.rightsOf target) ≠ updating.acl.rightsOf target))
      reached after) :
    Reached action rights updating (target :: targets) changed reached after := by
  obtain ⟨users, circles, acls, aclNames⟩ :=
    entryUpdated_frame action rights updating target
  obtain ⟨id, name, md5⟩ := put_frame updating.acl target.1
    ⟨target.2, updateHeld action rights (updating.acl.rightsOf target)⟩
  have self : (entryUpdated action rights updating target).acl.rightsOf target =
      updateHeld action rights (updating.acl.rightsOf target) :=
    entryUpdated_rightsOf updating target
  have others {other : Target} (different : other ≠ target) :
      (entryUpdated action rights updating target).acl.found other = updating.acl.found other := by
    rw [entryUpdated_found, if_neg different]
  have count {other : Target} (different : other ≠ target) :
      (target :: targets).count other = targets.count other :=
    List.count_cons_of_ne (Ne.symm different)
  constructor
  case found =>
    intro other
    rw [rest.found]
    by_cases same : other = target
    · subst same
      rw [self, if_pos List.mem_cons_self, List.count_cons_self, passes_succ]
      by_cases again : other ∈ targets
      · rw [if_pos again]
      · rw [if_neg again, entryUpdated_found, if_pos rfl, List.count_eq_zero_of_not_mem again]
        rfl
    · rw [others same, rightsOf_congr (others same), count same]
      simp [same]
  case changes =>
    rw [rest.changes]
    have step : (changed || decide (updating.acl.found target = none ∨
        updateHeld action rights (updating.acl.rightsOf target) ≠
          updating.acl.rightsOf target)) = true ↔
        changed = true ∨ updating.acl.found target = none ∨
          updateHeld action rights (updating.acl.rightsOf target) ≠
            updating.acl.rightsOf target := by
      simp
    rw [step]
    have first : Leads action (updating.acl.rightsOf target)
        (updateHeld action rights (updating.acl.rightsOf target)) := leads_updateHeld rights _
    have either := ne_iff_of_leads first (leads_passes rights (targets.count target) _)
    constructor
    · rintro ((before | new | moved) | ⟨other, listed, new | moved⟩)
      · exact .inl before
      · exact .inr ⟨target, List.mem_cons_self, .inl new⟩
      · refine .inr ⟨target, List.mem_cons_self, .inr ?_⟩
        rw [List.count_cons_self, passes_succ]
        exact either.mpr (.inl moved)
      · by_cases same : other = target
        · rw [same, entryUpdated_found, if_pos rfl] at new
          cases new
        · rw [others same] at new
          exact .inr ⟨other, List.mem_cons_of_mem _ listed, .inl new⟩
      · by_cases same : other = target
        · rw [same, self] at moved
          refine .inr ⟨target, List.mem_cons_self, .inr ?_⟩
          rw [List.count_cons_self, passes_succ]
          exact either.mpr (.inr moved)
        · rw [rightsOf_congr (others same), ← count same] at moved
          exact .inr ⟨other, List.mem_cons_of_mem _ listed, .inr moved⟩
    · rintro (before | ⟨other, listed, holds⟩)
      · exact .inl (.inl before)
      · by_cases same : other = target
        · rw [same, List.count_cons_self, passes_succ, either] at holds
          rcases holds with new | first | later
          · exact .inl (.inr (.inl new))
          · exact .inl (.inr (.inr first))
          · have again : target ∈ targets := by
              by_contra absent
              rw [List.count_eq_zero_of_not_mem absent] at later
              exact later rfl
            exact .inr ⟨target, again, .inr (by rwa [self])⟩
        · refine .inr ⟨other, (List.mem_cons.mp listed).resolve_left same, ?_⟩
          rw [others same, rightsOf_congr (others same), ← count same]
          exact holds
  case names =>
    intro kind name listed
    rcases rest.names kind name listed with before | ⟨other, member, same⟩
    · rcases mem_names_entryUpdated.mp before with old | ⟨_, new⟩
      · exact .inl old
      · exact .inr ⟨target, List.mem_cons_self, new⟩
    · refine .inr ⟨other, List.mem_cons_of_mem _ member, same.1, same.2.trans ?_⟩
      exact entryName_put _ _ _ _ _
  case users => exact rest.users.trans users
  case circles => exact rest.circles.trans circles
  case acls => exact rest.acls.trans acls
  case aclNames => exact rest.aclNames.trans aclNames
  case id => exact rest.id.trans id
  case name => exact rest.name.trans name
  case md5 => exact rest.md5.trans md5
  case circleids => exact rest.circleids

/-- Free targets are all updated. -/
theorem updateAll_of_free {targets : List Target} {updating : Updating}
    (free : ∀ target ∈ targets, Free action rights updating target) (changed : Bool) :
    ∃ after reached, updateAll action rights changed targets updating = .ok after reached ∧
      Reached action rights updating targets changed reached after := by
  induction targets generalizing updating changed with
  | nil => exact ⟨changed, updating, rfl, reached_nil updating changed⟩
  | cons target targets induction =>
      obtain ⟨here, later⟩ := List.forall_mem_cons.mp free
      have still : ∀ other ∈ targets,
          Free action rights (entryUpdated action rights updating target) other := by
        intro other listed
        by_cases same : other = target
        · rw [same]
          exact free_entryUpdated_self here
        · exact (free_entryUpdated_of_ne same).mpr (later other listed)
      obtain ⟨after, reached, run, fits⟩ := induction still
        (changed || decide (updating.acl.found target = none ∨
          updateHeld action rights (updating.acl.rightsOf target) ≠ updating.acl.rightsOf target))
      refine ⟨after, reached, ?_, fits.cons⟩
      exact (seq_of_ok (updateEntry_of_free changed here)).trans run

/-- Only free targets are all updated. -/
theorem free_of_updateAll {targets : List Target} {updating reached : Updating}
    {changed after : Bool}
    (done : updateAll action rights changed targets updating = .ok after reached) :
    ∀ target ∈ targets, Free action rights updating target := by
  induction targets generalizing updating changed with
  | nil => simp
  | cons target targets induction =>
      have here : Free action rights updating target := by
        by_contra stuck
        obtain ⟨problem, failed, raised⟩ := updateEntry_of_not_free changed stuck
        have ends := (seq_of_error raised).symm.trans done
        cases ends
      have run := (seq_of_ok (updateEntry_of_free changed here)).symm.trans done
      have later := induction run
      intro other listed
      by_cases same : other = target
      · exact same ▸ here
      · exact (free_entryUpdated_of_ne same).mp
          (later other ((List.mem_cons.mp listed).resolve_left same))

theorem updateAll_cons (changed : Bool) (target : Target) (targets : List Target) :
    updateAll action rights changed (target :: targets) =
      updateEntry target.1 action rights changed target.2 >>= fun changed =>
        updateAll action rights changed targets := rfl

theorem updateAll_append (changed : Bool) (first second : List Target) :
    updateAll action rights changed (first ++ second) =
      updateAll action rights changed first >>= fun changed =>
        updateAll action rights changed second :=
  List.foldlM_append

/-- The update of a target does not look at the caller's list. -/
theorem updateEntry_circleids {updating reached : Updating} {target : Target}
    {changed after : Bool} (circleids : List Int)
    (done : updateEntry target.1 action rights changed target.2 updating = .ok after reached) :
    updateEntry target.1 action rights changed target.2
        { updating with circleids := circleids } =
      .ok after { reached with circleids := circleids } ∧
      reached.db.circles = updating.db.circles := by
  have free : Free action rights updating target := by
    by_contra stuck
    obtain ⟨problem, failed, raised⟩ := updateEntry_of_not_free changed stuck
    cases raised.symm.trans done
  have other : Free action rights { updating with circleids := circleids } target := free
  rw [updateEntry_of_free changed free] at done
  cases done
  exact ⟨updateEntry_of_free changed other,
    (entryUpdated_frame action rights updating target).2.1⟩

theorem updateAll_circleids {targets : List Target} {updating reached : Updating}
    {changed after : Bool} (circleids : List Int)
    (done : updateAll action rights changed targets updating = .ok after reached) :
    updateAll action rights changed targets { updating with circleids := circleids } =
      .ok after { reached with circleids := circleids } := by
  induction targets generalizing updating changed with
  | nil =>
      cases done
      rfl
  | cons target targets induction =>
      rw [updateAll_cons, seq_eq_ok_iff] at done
      obtain ⟨between, middle, first, rest⟩ := done
      rw [updateAll_cons, seq_of_ok (updateEntry_circleids circleids first).1]
      exact induction rest

/-! ### The loop over the circles -/

theorem updateCircles_nil (fuel : Nat) (visited : List Int) (changed : Bool) (db : Db)
    (acl : Acl) :
    updateCircles action rights fuel visited changed ⟨db, acl, []⟩ =
      .ok (some changed) ⟨db, acl, []⟩ := by
  cases fuel <;> rfl

theorem updateCircles_cons (fuel : Nat) (visited : List Int) (changed : Bool) (db : Db)
    (acl : Acl) (circleid : Int) (pending : List Int) :
    updateCircles action rights (fuel + 1) visited changed ⟨db, acl, circleid :: pending⟩ =
      (updateCircle action rights visited changed circleid >>= fun changed =>
        updateCircles action rights fuel (circleid :: visited) changed) ⟨db, acl, pending⟩ :=
  rfl

theorem updateCircle_of_ok {updating reached : Updating} (visited : List Int) {circleid : Int}
    {changed after : Bool} {circle : Circle}
    (stored : updating.db.circles.lookup circleid = some circle)
    (done : updateEntry .circle action rights changed circleid updating = .ok after reached) :
    updateCircle action rights visited changed circleid updating =
      .ok after { reached with
        circleids := Worklist.pendingBehind updating.db.circleMembers visited circleid
          reached.circleids } := by
  have entered : updateEntry (Kind.circle, circleid).1 action rights changed circleid updating =
      .ok after reached := done
  have same := (updateEntry_circleids [] entered).2
  have found : getCircle circleid reached = .ok circle reached := by
    rw [getCircle, same, stored]
  have members : updating.db.circleMembers circleid = circle.circleMembers := by
    rw [Db.circleMembers, stored]
    rfl
  have run : updateCircle action rights visited changed circleid updating = _ :=
    (seq_of_ok done).trans ((seq_of_ok found).trans modify_seq)
  rw [run, Worklist.pendingBehind, Worklist.pendingBehind, members]
  rfl

/-- The loop works on the circles in the order in which they are walked. -/
theorem updateCircles_of_walk {fuel : Nat} {visited order circleids : List Int} {db : Db}
    {acl : Acl} {reached : Updating} {changed after : Bool}
    (walked : Worklist.walk db.circleMembers fuel visited circleids = some order)
    (exist : ∀ circleid ∈ order, (db.circles.lookup circleid).isSome)
    (done : updateAll action rights changed (order.map (Kind.circle, ·)) ⟨db, acl, circleids⟩ =
      .ok after reached) :
    updateCircles action rights fuel visited changed ⟨db, acl, circleids⟩ =
      .ok (some after) { reached with circleids := [] } := by
  induction fuel generalizing visited order circleids db acl changed reached with
  | zero =>
      cases circleids with
      | cons circleid pending => cases walked
      | nil =>
          cases walked
          cases done
          exact updateCircles_nil 0 visited after db acl
  | succ fuel induction =>
      cases circleids with
      | nil =>
          cases walked
          cases done
          exact updateCircles_nil _ visited after db acl
      | cons circleid pending =>
          obtain ⟨rest, walkedRest, same⟩ := Worklist.walk_cons_eq_some_iff.mp walked
          subst same
          obtain ⟨here, later⟩ := List.forall_mem_cons.mp exist
          obtain ⟨circle, stored⟩ := Option.isSome_iff_exists.mp here
          rw [List.map_cons, updateAll_cons, seq_eq_ok_iff] at done
          obtain ⟨between, ⟨middleDb, middleAcl, middleIds⟩, first, others⟩ := done
          obtain ⟨entry, circles⟩ := updateEntry_circleids pending first
          have circles : middleDb.circles = db.circles := circles
          have members : middleDb.circleMembers = db.circleMembers := by
            funext other
            rw [Db.circleMembers, Db.circleMembers, circles]
          have one : updateCircle action rights visited changed circleid ⟨db, acl, pending⟩ = _ :=
            updateCircle_of_ok visited stored entry
          have more := updateAll_circleids
            (Worklist.pendingBehind db.circleMembers visited circleid pending) others
          have walkedMiddle : Worklist.walk middleDb.circleMembers fuel (circleid :: visited)
              (Worklist.pendingBehind db.circleMembers visited circleid pending) = some rest := by
            rw [members]
            exact walkedRest
          have goes := induction walkedMiddle (circles ▸ later) more
          rw [updateCircles_cons]
          exact (seq_of_ok one).trans goes

/-- The loop ends with an empty list. -/
theorem circleids_of_updateCircles {fuel : Nat} {visited : List Int}
    {updating reached : Updating} {changed after : Bool}
    (done : updateCircles action rights fuel visited changed updating = .ok (some after) reached) :
    reached.circleids = [] := by
  induction fuel generalizing visited updating changed with
  | zero =>
      obtain ⟨db, acl, circleids⟩ := updating
      cases circleids with
      | nil =>
          cases (updateCircles_nil 0 visited changed db acl).symm.trans done
          rfl
      | cons circleid pending =>
          have stops : (EStateM.Result.ok none _ : EStateM.Result Exn Updating (Option Bool)) =
            _ := done
          cases stops
  | succ fuel induction =>
      obtain ⟨db, acl, circleids⟩ := updating
      cases circleids with
      | nil =>
          cases (updateCircles_nil _ visited changed db acl).symm.trans done
          rfl
      | cons circleid pending =>
          rw [updateCircles_cons, seq_eq_ok_iff] at done
          obtain ⟨between, middle, first, rest⟩ := done
          exact induction rest

end

end ACL

end JumpscaleX
