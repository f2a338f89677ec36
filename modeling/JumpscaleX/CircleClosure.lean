import JumpscaleX.RightsUpdate

/-!
# Rights for a circle and all its subcircles

The loop over the circles ends on every graph of circles, and rights that are
added or deleted change for the given users and for every circle that can be
reached from the given ones.  The list of circle ids belongs to the caller,
and the loop leaves it empty.
-/

namespace JumpscaleX

open Stateful

namespace ACL

/-! ### The end of the loop -/

/-- The members of all circles. -/
def Db.allMembers (db : Db) : List Int :=
  db.circles.entries.flatMap (fun entry => entry.2.circleMembers)

/-- The circles that a loop may come to. -/
def Db.nodes (db : Db) (circleids : List Int) : Finset Int :=
  (circleids ++ db.allMembers).toFinset

/-- Fuel with which the loop over the circles ends. -/
def Db.enough (db : Db) (circleids : List Int) : Nat :=
  Worklist.totalWeight (db.nodes circleids) db.allMembers.length [] circleids

theorem Db.circleMembers_sublist (db : Db) (circleid : Int) :
    (db.circleMembers circleid).Sublist db.allMembers := by
  rw [circleMembers]
  cases stored : db.circles.lookup circleid with
  | none => exact List.nil_sublist _
  | some circle =>
      have member := OrderedMap.lookup_eq_some_iff.mp stored
      obtain ⟨before, behind, split⟩ := List.append_of_mem member
      rw [allMembers, split, List.flatMap_append, List.flatMap_cons]
      exact (List.sublist_append_left _ _).trans (List.sublist_append_right _ _)

/-- The loop ends, whatever the circles are. -/
theorem Db.walk_ends (db : Db) {circleids : List Int} {fuel : Nat}
    (enough : db.enough circleids ≤ fuel) :
    ∃ order, Worklist.walk db.circleMembers fuel [] circleids = some order := by
  refine Worklist.walk_ends ?_ ?_ ?_ enough
  · intro circleid _ successor follows
    have listed := (db.circleMembers_sublist circleid).subset follows
    exact List.mem_toFinset.mpr (List.mem_append_right _ listed)
  · intro circleid _
    exact (db.circleMembers_sublist circleid).length_le
  · intro circleid listed
    exact List.mem_toFinset.mpr (List.mem_append_left _ listed)

/-- The circles that can be reached from the given ones. -/
def Db.Reaches (db : Db) (circleids : List Int) (circleid : Int) : Prop :=
  ∃ start ∈ circleids,
    Relation.ReflTransGen (fun left right => right ∈ db.circleMembers left) start circleid

/-! ### The ACL is saved -/

/-- The ACL has a name of its own. -/
def Savable (db : Db) (acl : Acl) : Prop :=
  acl.name ≠ "" ∧ ∀ row ∈ db.aclNames.entries, row.2 = acl.name → some row.1 = acl.id

/-- The state behind `acl.save()`. -/
def aclSaved (updating : Updating) : Updating :=
  let id := updating.acl.id.getD (updating.db.lastId + 1)
  let acl := { updating.acl with id := some id }
  { updating with
    db := { updating.db with
      acls := updating.db.acls.insert id acl
      aclNames := updating.db.aclNames.insert id acl.name
      lastId := if updating.acl.id = none then id else updating.db.lastId }
    acl := acl }

theorem taken_iff (db : Db) (acl : Acl) :
    db.aclNames.entries.any (fun row => row.2 = acl.name ∧ some row.1 ≠ acl.id) = true ↔
      ¬ ∀ row ∈ db.aclNames.entries, row.2 = acl.name → some row.1 = acl.id := by
  simp only [List.any_eq_true, decide_eq_true_eq, not_forall]
  constructor
  · rintro ⟨row, listed, same, other⟩
    exact ⟨row, listed, same, other⟩
  · rintro ⟨row, listed, same, other⟩
    exact ⟨row, listed, same, other⟩

theorem saveAcl_of_savable {updating : Updating} (savable : Savable updating.db updating.acl)
    (set : updating.acl.md5 ≠ none) : saveAcl updating = .ok () (aclSaved updating) := by
  obtain ⟨db, ⟨id, name, users, circles, md5⟩, circleids⟩ := updating
  obtain ⟨named, alone⟩ := savable
  have free := (not_congr (taken_iff db ⟨id, name, users, circles, md5⟩)).mpr
    (not_not_intro alone)
  simp only [saveAcl, if_neg named, if_neg set]
  cases id with
  | none =>
      simp only [free]
      rfl
  | some id =>
      simp only [free]
      rfl

theorem saveAcl_of_not_savable {updating : Updating}
    (stuck : ¬ Savable updating.db updating.acl) :
    ∃ problem failed, saveAcl updating = .error problem failed := by
  obtain ⟨db, ⟨id, name, users, circles, md5⟩, circleids⟩ := updating
  by_cases named : name = ""
  · exact ⟨_, _, if_pos named⟩
  · have taken := (taken_iff db ⟨id, name, users, circles, md5⟩).mpr
      fun alone => stuck ⟨named, alone⟩
    simp only [saveAcl, if_neg named]
    by_cases set : md5 = none
    · exact ⟨_, _, if_pos set⟩
    · simp only [if_neg set]
      cases id with
      | none => exact ⟨_, _, if_pos taken⟩
      | some id => exact ⟨_, _, if_pos taken⟩

/-! ### The whole update -/

section

variable (md5 : Acl → Md5) {action : Action} {rights : List String} {userids circleids : List Int}
  {db : Db} {acl : Acl}

/-- The users and then the circles, in the order in which they are updated. -/
def targetsOf (userids order : List Int) : List Target :=
  userids.map (Kind.user, ·) ++ order.map (Kind.circle, ·)

theorem mem_targetsOf {order : List Int} {target : Target} :
    target ∈ targetsOf userids order ↔
      target.1 = .user ∧ target.2 ∈ userids ∨ target.1 = .circle ∧ target.2 ∈ order := by
  obtain ⟨kind, id⟩ := target
  cases kind <;> simp [targetsOf]

theorem count_user (userids order : List Int) (userid : Int) :
    (targetsOf userids order).count (Kind.user, userid) = userids.count userid := by
  have own : (userids.map (Kind.user, ·)).count (Kind.user, userid) = userids.count userid :=
    List.count_map_of_injective userids (Kind.user, ·) (fun _ _ same => (Prod.ext_iff.mp same).2)
      userid
  have others : (order.map (Kind.circle, ·)).count (Kind.user, userid) = 0 := by
    apply List.count_eq_zero.mpr
    simp
  rw [targetsOf, List.count_append, own, others, Nat.add_zero]

/-- The md5 is set on the ACL before it is saved. -/
def withMd5 (updating : Updating) : Updating :=
  { updating with acl := { updating.acl with md5 := some (md5 updating.acl) } }

theorem updateUsers_eq (action : Action) (rights : List String) (userids : List Int)
    (changed : Bool) :
    userids.foldlM (updateEntry .user action rights) changed =
      updateAll action rights changed (userids.map (Kind.user, ·)) := by
  rw [updateAll, List.foldlM_map]

/-- When everything can be written, the update is that of all its targets. -/
theorem rightsUpdate_of_updateAll {fuel : Nat} {order : List Int} {reached : Updating}
    {after : Bool} (walked : Worklist.walk db.circleMembers fuel [] circleids = some order)
    (exist : ∀ circleid ∈ order, (db.circles.lookup circleid).isSome)
    (done : updateAll action rights false (targetsOf userids order) ⟨db, acl, circleids⟩ =
      .ok after reached)
    (savable : Savable reached.db reached.acl) :
    rightsUpdate md5 fuel action userids rights ⟨db, acl, circleids⟩ =
      .ok (some after) (aclSaved (withMd5 md5 { reached with circleids := [] })) := by
  rw [targetsOf, updateAll_append, seq_eq_ok_iff] at done
  obtain ⟨between, ⟨middleDb, middleAcl, middleIds⟩, users, circles⟩ := done
  have free := free_of_updateAll users
  obtain ⟨between', middle', run, frame⟩ := updateAll_of_free free false
  cases run.symm.trans users
  have sameIds : middleIds = circleids := frame.circleids
  have sameCircles : middleDb.circles = db.circles := frame.circles
  have members : middleDb.circleMembers = db.circleMembers := by
    funext circleid
    rw [Db.circleMembers, Db.circleMembers, sameCircles]
  subst sameIds
  have loop := updateCircles_of_walk (members.symm ▸ walked) (sameCircles.symm ▸ exist) circles
  have first : userids.foldlM (updateEntry .user action rights) false ⟨db, acl, middleIds⟩ =
      .ok between ⟨middleDb, middleAcl, middleIds⟩ := by
    rw [updateUsers_eq]
    exact users
  have saved : saveAcl (withMd5 md5 { reached with circleids := [] }) =
      .ok () (aclSaved (withMd5 md5 { reached with circleids := [] })) :=
    saveAcl_of_savable savable (Option.some_ne_none _)
  exact (seq_of_ok first).trans ((seq_of_ok loop).trans (seq_of_ok saved))

/-- An update that succeeds has updated its users, and has emptied the list. -/
theorem of_rightsUpdate {fuel : Nat} {reached : Updating} {after : Bool}
    (done : rightsUpdate md5 fuel action userids rights ⟨db, acl, circleids⟩ =
      .ok (some after) reached) :
    reached.circleids = [] ∧ (circleids = [] → ∃ middle,
      updateAll action rights false (userids.map (Kind.user, ·)) ⟨db, acl, []⟩ =
        .ok after middle ∧ Savable middle.db middle.acl ∧
          reached = aclSaved (withMd5 md5 middle)) := by
  rw [rightsUpdate, seq_eq_ok_iff] at done
  obtain ⟨changed, middle, users, done⟩ := done
  rw [seq_eq_ok_iff] at done
  obtain ⟨looped, behind, loop, done⟩ := done
  cases looped with
  | none => cases done
  | some looped =>
      have empty := circleids_of_updateCircles loop
      have saving : (saveAcl >>= fun _ => pure (some looped)) (withMd5 md5 behind) =
          .ok (some after) reached := done
      have savable : Savable behind.db behind.acl := by
        by_contra stuck
        have other : ¬ Savable (withMd5 md5 behind).db (withMd5 md5 behind).acl := stuck
        obtain ⟨problem, failed, raised⟩ := saveAcl_of_not_savable other
        cases (seq_of_error raised).symm.trans saving
      have saved : saveAcl (withMd5 md5 behind) = .ok () (aclSaved (withMd5 md5 behind)) :=
        saveAcl_of_savable savable (Option.some_ne_none _)
      cases (seq_of_ok saved).symm.trans saving
      refine ⟨empty, ?_⟩
      intro none
      subst none
      rw [updateUsers_eq] at users
      obtain ⟨between', middle', run, frame⟩ := updateAll_of_free (free_of_updateAll users) false
      cases run.symm.trans users
      obtain ⟨middleDb, middleAcl, middleIds⟩ := middle
      have sameIds : middleIds = [] := frame.circleids
      subst sameIds
      cases (updateCircles_nil fuel [] changed middleDb middleAcl).symm.trans loop
      exact ⟨_, users, savable, rfl⟩

/-- The given users, and the circles that can be reached from the given ones. -/
def Given (db : Db) (userids circleids : List Int) (target : Target) : Prop :=
  match target.1 with
  | .user => target.2 ∈ userids
  | .circle => db.Reaches circleids target.2

/-- The rights of the targets, and of nothing else, are what the action is to
lead to. -/
structure Granted (action : Action) (rights : List String) (targets : Target → Prop)
    (before after : Acl) (changed : Bool) : Prop where
  reached : ∀ target, targets target → ∃ entry, after.found target = some entry ∧
    ∀ value, value ∈ entry.rights ↔ Wanted action rights (before.rightsOf target) value
  others : ∀ target, ¬ targets target → after.found target = before.found target
  single : ∀ kind, ((after.entries kind).list.map Entry.id).Nodup
  changes : changed = true ↔ ∃ target,
    before.found target = none ∧ after.found target ≠ none ∨
      ∃ value, ¬ (value ∈ after.rightsOf target ↔ value ∈ before.rightsOf target)

/-- The update ends, with the rights it is to lead to, and leaves the caller's
list in the given state. -/
def Updates (db : Db) (acl : Acl) (action : Action) (userids circleids : List Int)
    (rights : List String) (left : List Int) : Prop :=
  ∃ enough, ∀ fuel, enough ≤ fuel → ∃ changed reached,
    rightsUpdate md5 fuel action userids rights ⟨db, acl, circleids⟩ =
      .ok (some changed) reached ∧
    Granted action rights (Given db userids circleids) acl reached.acl changed ∧
    reached.circleids = left

theorem aclSaved_found (updating : Updating) (target : Target) :
    (aclSaved (withMd5 md5 updating)).acl.found target = updating.acl.found target := by
  obtain ⟨kind, id⟩ := target
  cases kind <;> rfl

theorem given_iff_mem (userids : List Int) {fuel : Nat} {order : List Int}
    (walked : Worklist.walk db.circleMembers fuel [] circleids = some order) (target : Target) :
    Given db userids circleids target ↔ target ∈ targetsOf userids order := by
  obtain ⟨kind, id⟩ := target
  rw [mem_targetsOf]
  cases kind with
  | user => simp [Given]
  | circle => simp [Given, Db.Reaches, Worklist.mem_walk_iff walked]

/-- Where the loops over the rights fit, the targets have the wanted rights. -/
theorem granted_of_reached {targets : List Target} {updating reached : Updating} {changed : Bool}
    {given : Target → Prop} (same : ∀ target, given target ↔ target ∈ targets)
    (run : Reached action rights updating targets false reached changed)
    (fits : ∀ target ∈ targets,
      Fits action rights (targets.count target) (updating.acl.rightsOf target)) :
    Granted action rights given updating.acl (aclSaved (withMd5 md5 reached)).acl changed := by
  have held {target : Target} (listed : target ∈ targets) :
      (aclSaved (withMd5 md5 reached)).acl.rightsOf target =
        passes action rights (targets.count target) (updating.acl.rightsOf target) := by
    have found : (aclSaved (withMd5 md5 reached)).acl.found target = some ⟨target.2,
        passes action rights (targets.count target) (updating.acl.rightsOf target)⟩ := by
      rw [aclSaved_found, run.found, if_pos listed]
    exact Acl.rightsOf_of_found found
  have others {target : Target} (absent : target ∉ targets) :
      (aclSaved (withMd5 md5 reached)).acl.found target = updating.acl.found target := by
    rw [aclSaved_found, run.found, if_neg absent]
  constructor
  case reached =>
    intro target member
    have listed := (same target).mp member
    refine ⟨_, (aclSaved_found md5 reached target).trans ((run.found target).trans
      (if_pos listed)), ?_⟩
    exact wanted_iff_of_fits (List.count_pos_iff.mpr listed) (fits target listed)
  case others =>
    intro target outside
    exact others fun listed => outside ((same target).mpr listed)
  case single =>
    intro kind
    exact ((aclSaved (withMd5 md5 reached)).acl.entries kind).nodup
  case changes =>
    rw [run.changes]
    constructor
    · rintro (impossible | ⟨target, listed, new | moved⟩)
      · cases impossible
      · refine ⟨target, .inl ⟨new, ?_⟩⟩
        rw [aclSaved_found, run.found, if_pos listed]
        exact Option.some_ne_none _
      · refine ⟨target, .inr ?_⟩
        rw [held listed]
        exact (passes_ne_iff (List.count_pos_iff.mpr listed) (fits target listed)).mp moved
    · rintro ⟨target, ⟨new, now⟩ | ⟨value, differs⟩⟩
      · by_cases listed : target ∈ targets
        · exact .inr ⟨target, listed, .inl new⟩
        · exact absurd ((others listed).trans new) now
      · by_cases listed : target ∈ targets
        · refine .inr ⟨target, listed, .inr ?_⟩
          apply (passes_ne_iff (List.count_pos_iff.mpr listed) (fits target listed)).mpr
          rw [held listed] at differs
          exact ⟨value, differs⟩
        · rw [rightsOf_congr (others listed)] at differs
          exact absurd Iff.rfl differs

theorem Savable.of_reached {targets : List Target} {updating reached : Updating} {changed : Bool}
    (run : Reached action rights updating targets false reached changed) :
    Savable reached.db reached.acl ↔ Savable updating.db updating.acl := by
  rw [Savable, Savable, run.name, run.aclNames, run.id]

/-- Where every record can be written, the update succeeds with what its
targets lead to. -/
theorem rightsUpdate_reached {fuel : Nat} (enough : db.enough circleids ≤ fuel)
    (exist : ∀ circleid, db.Reaches circleids circleid → (db.circles.lookup circleid).isSome)
    (savable : Savable db acl)
    (free : ∀ target, Given db userids circleids target →
      Free action rights ⟨db, acl, circleids⟩ target) :
    ∃ targets changed reached,
      (∀ target, Given db userids circleids target ↔ target ∈ targets) ∧
      rightsUpdate md5 fuel action userids rights ⟨db, acl, circleids⟩ = .ok (some changed)
        (aclSaved (withMd5 md5 { reached with circleids := [] })) ∧
      Reached action rights ⟨db, acl, circleids⟩ targets false reached changed := by
  obtain ⟨order, walked⟩ := db.walk_ends enough
  have member := given_iff_mem userids walked
  have targetsFree : ∀ target ∈ targetsOf userids order,
      Free action rights ⟨db, acl, circleids⟩ target := fun target listed =>
    free target ((member target).mpr listed)
  obtain ⟨changed, reached, run, frame⟩ := updateAll_of_free targetsFree false
  have stored : ∀ circleid ∈ order, (db.circles.lookup circleid).isSome := fun circleid listed =>
    exist circleid ((Worklist.mem_walk_iff walked).mp listed)
  exact ⟨targetsOf userids order, changed, reached, member,
    rightsUpdate_of_updateAll md5 walked stored run ((Savable.of_reached frame).mpr savable),
    frame⟩

/-- The rights of exactly the given users and of the circle closure change, and
the list of circle ids is emptied. -/
theorem updates_closure
    (exist : ∀ circleid, db.Reaches circleids circleid → (db.circles.lookup circleid).isSome)
    (savable : Savable db acl)
    (fitting : ∀ target, Given db userids circleids target →
      Free action rights ⟨db, acl, circleids⟩ target ∧
        Fits action rights 1 (acl.rightsOf target)) :
    Updates md5 db acl action userids circleids rights [] := by
  refine ⟨db.enough circleids, ?_⟩
  intro fuel enough
  obtain ⟨targets, changed, reached, member, done, frame⟩ :=
    rightsUpdate_reached md5 enough exist savable fun target given => (fitting target given).1
  have granted := granted_of_reached md5 member frame fun target listed =>
    (fitting target ((member target).mpr listed)).2.more (List.count_pos_iff.mpr listed)
  exact ⟨changed, _, done, granted, rfl⟩

/-- Every user can be written, and what is given of each leads to the wanted
rights. -/
def UsersFit (db : Db) (acl : Acl) (action : Action) (rights : List String) (userids : List Int) :
    Prop :=
  ∀ userid ∈ userids, Free action rights ⟨db, acl, []⟩ (.user, userid) ∧
    Fits action rights (userids.count userid) (acl.rightsOf (.user, userid))

theorem updates_unmodified_iff :
    Updates md5 db acl action userids circleids rights circleids ↔
      circleids = [] ∧ Savable db acl ∧ UsersFit db acl action rights userids := by
  constructor
  · rintro ⟨enough, ends⟩
    obtain ⟨changed, reached, done, granted, left⟩ := ends enough (Nat.le_refl _)
    obtain ⟨empty, updated⟩ := of_rightsUpdate md5 done
    have none : circleids = [] := left.symm.trans empty
    obtain ⟨middle, run, savable, same⟩ := updated none
    have free := free_of_updateAll run
    obtain ⟨changed', middle', run', frame⟩ := updateAll_of_free free false
    cases run'.symm.trans run
    refine ⟨none, (Savable.of_reached frame).mp savable, ?_⟩
    intro userid listed
    have target : (Kind.user, userid) ∈ userids.map (Kind.user, ·) :=
      List.mem_map.mpr ⟨userid, listed, rfl⟩
    refine ⟨free _ target, ?_⟩
    obtain ⟨entry, found, wanted⟩ := granted.reached (.user, userid) listed
    have count := count_user userids [] userid
    rw [targetsOf, List.map_nil, List.append_nil] at count
    have entered := frame.found (.user, userid)
    rw [if_pos target, count] at entered
    rw [same, aclSaved_found, entered] at found
    cases found
    exact fits_of_wanted wanted
  · rintro ⟨none, savable, fit⟩
    subst none
    have listed {target : Target} (member : target ∈ targetsOf userids []) :
        ∃ userid ∈ userids, target = (.user, userid) := by
      rcases mem_targetsOf.mp member with ⟨kind, inside⟩ | ⟨_, impossible⟩
      · exact ⟨target.2, inside, Prod.ext kind rfl⟩
      · cases impossible
    have walked : ∀ fuel, Worklist.walk db.circleMembers fuel [] [] = some [] :=
      fun fuel => Worklist.walk_nil fuel []
    have free : ∀ target ∈ targetsOf userids [],
        Free action rights ⟨db, acl, []⟩ target := by
      intro target member
      obtain ⟨userid, inside, same⟩ := listed member
      exact same ▸ (fit userid inside).1
    obtain ⟨changed, reached, run, frame⟩ := updateAll_of_free free false
    refine ⟨0, fun fuel _ => ⟨changed, _, rightsUpdate_of_updateAll md5 (walked fuel) (by simp) run
      ((Savable.of_reached frame).mpr savable), ?_, rfl⟩⟩
    have fits : ∀ target ∈ targetsOf userids [], Fits action rights
        ((targetsOf userids []).count target) (acl.rightsOf target) := by
      intro target member
      obtain ⟨userid, inside, same⟩ := listed member
      rw [same, count_user]
      exact (fit userid inside).2
    have granted := granted_of_reached md5 (given_iff_mem userids (walked fuel)) frame fits
    exact granted

/-- The rights of the given users and of the circle closure change, and nothing
else does: but the caller's list stays as it is only when it is empty. -/
theorem rights_reach_closure (db : Db) (acl : Acl) (action : Action)
    (userids circleids : List Int) (rights : List String) :
    ((∀ circleid, db.Reaches circleids circleid → (db.circles.lookup circleid).isSome) →
      Savable db acl →
      (∀ target, Given db userids circleids target →
        Free action rights ⟨db, acl, circleids⟩ target ∧
          Fits action rights 1 (acl.rightsOf target)) →
      Updates md5 db acl action userids circleids rights []) ∧
    (Updates md5 db acl action userids circleids rights circleids ↔
      circleids = [] ∧ Savable db acl ∧ UsersFit db acl action rights userids) :=
  ⟨updates_closure md5, updates_unmodified_iff md5⟩

end

/-- One circle without members. -/
def oneCircle : Db where
  users := []
  circles := OrderedMap.empty.insert 1 ⟨[], []⟩
  userNames := []
  circleNames := []
  acls := .empty
  aclNames := .empty
  lastId := 1

/-- The list of the caller has lost its circle. -/
theorem not_rights_reach_closure_given :
    ¬ Updates (fun _ => "d41d8cd98f00b204e9800998ecf8427e") oneCircle .new .add [] [1] ["r"]
      [1] := by
  rintro ⟨enough, ends⟩
  obtain ⟨changed, reached, done, _, left⟩ := ends enough (Nat.le_refl _)
  have empty := (of_rightsUpdate _ done).1
  rw [left] at empty
  cases empty

end ACL

end JumpscaleX
