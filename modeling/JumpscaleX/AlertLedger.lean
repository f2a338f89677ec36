import JumpscaleX.AlertHandler

/-!
# The ledger of the alerts

A ledger counts how often something was raised since its alert was last removed, and
what status its alert has.  One ledger follows the store, identifier by identifier.
Another one says what the alerts should be, one for each message, public message,
category and type.
-/

namespace JumpscaleX.Alerts

open Runs Stateful

/-- The number of raises, and the status, of what has an alert. -/
abbrev Ledger (K : Type) := K → Option (Nat × Status)

namespace Ledger

variable {K : Type} [DecidableEq K]

/-- One more raise; the first one gives the given status. -/
def raise (first : Status) (ledger : Ledger K) (key : K) : Ledger K :=
  Function.update ledger key
    (match ledger key with
    | none => some (1, first)
    | some (count, status) => some (count + 1, status.raised))

/-- The entries whose alert is not the one under an identifier stay. -/
def step (first : Status) (keyOf : LogDict → K) (place : K → String) (ledger : Ledger K) :
    Action → Ledger K
  | .handleError logdict => ledger.raise first (keyOf logdict)
  | .alertRaise message messagePub cat level alertType =>
      ledger.raise first (keyOf (Alerts.alertRaise message messagePub cat level alertType))
  | .close identifier => fun key =>
      if place key = identifier then (ledger key).map (fun entry => (entry.1, .closed))
      else ledger key
  | .delete identifier => fun key => if place key = identifier then none else ledger key
  | .reset => fun _ => none
  | .deleteAll => fun _ => none

theorem step_of_logdict {first : Status} {keyOf : LogDict → K} {place : K → String}
    {ledger : Ledger K} {action : Action} {logdict : LogDict}
    (raises : action.logdict = some logdict) :
    ledger.step first keyOf place action = ledger.raise first (keyOf logdict) := by
  cases action with
  | handleError given =>
      cases raises
      rfl
  | alertRaise message messagePub cat level alertType =>
      cases raises
      rfl
  | close => cases raises
  | delete => cases raises
  | reset => cases raises
  | deleteAll => cases raises

end Ledger

/-! ## The store follows its ledger -/

namespace Redis

variable {db : Redis} {host : Host}

/-- Alerts stand under their identifiers.  Every alert has an id that was given
before and that leads to its identifier. -/
structure Consistent (db : Redis) : Prop where
  named : ∀ identifier alert, db.alerts identifier = some alert →
    alert.identifier = identifier
  numbered : ∀ identifier alert, db.alerts identifier = some alert →
    alert.alertId ≠ 0 ∧ db.alertsIds alert.alertId = some identifier
  given : ∀ id identifier, db.alertsIds id = some identifier → id ≤ db.alertsId

theorem consistent_empty : Consistent .empty := by
  constructor
  · intro identifier alert found
    cases found
  · intro identifier alert found
    cases found
  · intro id identifier found
    cases found

/-- An alert that was not stored before gets the next id. -/
theorem Consistent.set_new (consistent : db.Consistent) {alert : Alert}
    (unnumbered : alert.alertId = 0) : (db.set alert).Consistent := by
  rw [set, if_pos unnumbered]
  constructor
  · intro identifier other found
    by_cases same : identifier = alert.identifier
    · simp only [same, Function.update_self, Option.some.injEq] at found
      rw [← found, same]
    · simp only [Function.update_of_ne same] at found
      exact consistent.named identifier other found
  · intro identifier other found
    by_cases same : identifier = alert.identifier
    · simp only [same, Function.update_self, Option.some.injEq] at found
      rw [← found, same]
      simp
    · simp only [Function.update_of_ne same] at found
      obtain ⟨numbered, leads⟩ := consistent.numbered identifier other found
      refine ⟨numbered, ?_⟩
      have older := consistent.given _ _ leads
      have differ : other.alertId ≠ db.alertsId + 1 := by omega
      simp only [Function.update_of_ne differ, leads]
  · intro id identifier found
    by_cases same : id = db.alertsId + 1
    · exact Nat.le_of_eq same
    · simp only [Function.update_of_ne same] at found
      have older := consistent.given id identifier found
      simp only
      omega

/-- A stored alert is replaced. -/
theorem Consistent.set_stored (consistent : db.Consistent) {alert stored : Alert}
    (found : db.alerts alert.identifier = some stored)
    (same : alert.alertId = stored.alertId) : (db.set alert).Consistent := by
  obtain ⟨numbered, leads⟩ := consistent.numbered _ stored found
  rw [← same] at numbered leads
  rw [set, if_neg numbered]
  constructor
  · intro identifier other found
    by_cases here : identifier = alert.identifier
    · simp only [here, Function.update_self, Option.some.injEq] at found
      rw [← found, here]
    · simp only [Function.update_of_ne here] at found
      exact consistent.named identifier other found
  · intro identifier other found
    by_cases here : identifier = alert.identifier
    · simp only [here, Function.update_self, Option.some.injEq] at found
      rw [← found, here]
      exact ⟨numbered, leads⟩
    · simp only [Function.update_of_ne here] at found
      exact consistent.numbered identifier other found
  · exact consistent.given

theorem Consistent.delete (consistent : db.Consistent) {identifier : String} {alert : Alert}
    (found : db.alerts identifier = some alert) : (db.delete alert).Consistent := by
  have named := consistent.named identifier alert found
  constructor
  · intro other alert' found'
    by_cases here : other = alert.identifier
    · simp [Redis.delete, here] at found'
    · simp only [Redis.delete, Function.update_of_ne here] at found'
      exact consistent.named other alert' found'
  · intro other alert' found'
    by_cases here : other = alert.identifier
    · simp [Redis.delete, here] at found'
    · simp only [Redis.delete, Function.update_of_ne here] at found'
      obtain ⟨numbered, leads⟩ := consistent.numbered other alert' found'
      refine ⟨numbered, ?_⟩
      have differ : alert'.alertId ≠ alert.alertId := by
        intro same
        rw [same, (consistent.numbered identifier alert found).2, Option.some.injEq] at leads
        exact here (leads.symm.trans named.symm)
      simp only [Redis.delete, Function.update_of_ne differ, leads]
  · intro id other leads
    by_cases here : id = alert.alertId
    · simp [Redis.delete, here] at leads
    · simp only [Redis.delete, Function.update_of_ne here] at leads
      exact consistent.given id other leads

theorem Consistent.reset (consistent : db.Consistent) : db.reset.Consistent := by
  constructor
  · intro identifier alert found
    cases found
  · intro identifier alert found
    cases found
  · exact consistent.given

theorem Consistent.raise (consistent : db.Consistent) (host : Host) (logdict : LogDict) :
    (db.set (((db.alerts (host.identifierOf logdict)).getD .new).handle
      host logdict)).Consistent := by
  cases found : db.alerts (host.identifierOf logdict) with
  | none =>
      exact consistent.set_new rfl
  | some stored =>
      exact consistent.set_stored found rfl

theorem Consistent.step (consistent : db.Consistent) (host : Host) (action : Action) :
    (db.step host action).Consistent := by
  cases action with
  | handleError logdict =>
      rw [step_of_logdict host rfl]
      exact consistent.raise host logdict
  | alertRaise message messagePub cat level alertType =>
      rw [step_of_logdict host rfl]
      exact consistent.raise host _
  | close identifier =>
      simp only [Redis.step, perform, close_eq]
      cases found : db.alerts identifier with
      | none => exact consistent
      | some stored =>
          have named := consistent.named identifier stored found
          have found' : db.alerts stored.identifier = some stored := by rw [named, found]
          exact consistent.set_stored found' rfl
  | delete identifier =>
      simp only [Redis.step, perform, deleteIdentified_eq]
      cases found : db.alerts identifier with
      | none => exact consistent
      | some stored => exact consistent.delete found
  | reset => exact consistent.reset
  | deleteAll => exact consistent_empty

/-- The ids of the alerts, in every run. -/
theorem consistent_of_run (host : Host) (actions : List Action) :
    (run (Redis.step host) .empty actions).Consistent :=
  run_always Consistent (fun _ action consistent => consistent.step host action)
    consistent_empty actions

theorem Consistent.alertId_injective (consistent : db.Consistent) {left right : String}
    {alert other : Alert} (found : db.alerts left = some alert)
    (found' : db.alerts right = some other) (same : alert.alertId = other.alertId) :
    left = right := by
  have leads := (consistent.numbered left alert found).2
  rw [same, (consistent.numbered right other found').2, Option.some.injEq] at leads
  exact leads.symm

/-- The store under one identifier, as its ledger has it. -/
def entry (db : Redis) (identifier : String) : Option (Nat × Status) :=
  (db.alerts identifier).map (fun alert => (alert.count, alert.status))

theorem entry_set {alert : Alert} (identifier : String) :
    (db.set alert).entry identifier =
      if identifier = alert.identifier then some (alert.count, alert.status)
      else db.entry identifier := by
  unfold entry
  rw [alerts_set]
  by_cases same : identifier = alert.identifier
  · rw [if_pos same, if_pos same]
    split <;> rfl
  · rw [if_neg same, if_neg same]

theorem entry_raise (host : Host) (logdict : LogDict) :
    (db.set (((db.alerts (host.identifierOf logdict)).getD .new).handle
      host logdict)).entry =
      Ledger.raise .reopen db.entry (host.identifierOf logdict) := by
  funext identifier
  rw [entry_set, Ledger.raise]
  by_cases same : identifier = host.identifierOf logdict
  · subst same
    rw [Function.update_self]
    cases found : db.alerts (host.identifierOf logdict) with
    | none => simp [Alert.handle, entry, found, Alert.new, Status.default, Status.raised]
    | some stored => simp [Alert.handle, entry, found]
  · rw [Function.update_of_ne same]
    simp [Alert.handle, same]

/-- One step of the store is one step of its ledger. -/
theorem Consistent.entry_step (consistent : db.Consistent) (host : Host) (action : Action) :
    (db.step host action).entry =
      Ledger.step .reopen host.identifierOf id db.entry action := by
  cases action with
  | handleError logdict =>
      rw [step_of_logdict host rfl]
      exact entry_raise host logdict
  | alertRaise message messagePub cat level alertType =>
      rw [step_of_logdict host rfl]
      exact entry_raise host _
  | close identifier =>
      funext other
      simp only [Redis.step, perform, close_eq, Ledger.step, id]
      cases found : db.alerts identifier with
      | none =>
          by_cases same : other = identifier
          · subst same
            simp [entry, found]
          · simp [same]
      | some stored =>
          have named := consistent.named identifier stored found
          rw [entry_set]
          by_cases same : other = identifier
          · subst same
            simp [entry, found, named]
          · simp [same, named]
  | delete identifier =>
      funext other
      simp only [Redis.step, perform, deleteIdentified_eq, Ledger.step, id]
      cases found : db.alerts identifier with
      | none =>
          by_cases same : other = identifier
          · subst same
            simp [entry, found]
          · simp [same]
      | some stored =>
          have named := consistent.named identifier stored found
          by_cases same : other = identifier
          · subst same
            simp [entry, Redis.delete, named]
          · simp [entry, Redis.delete, same, named]
  | reset => rfl
  | deleteAll => rfl

/-- In every run there is one alert for each identifier that was raised since its
alert was last removed, with the number of these raises. -/
theorem entry_of_run (host : Host) (actions : List Action) :
    (run (Redis.step host) .empty actions).entry =
      run (Ledger.step .reopen host.identifierOf id) (fun _ => none) actions := by
  suffices general : ∀ db : Redis, db.Consistent →
      (run (Redis.step host) db actions).entry =
        run (Ledger.step .reopen host.identifierOf id) db.entry actions from
    general .empty consistent_empty
  induction actions with
  | nil => exact fun _ _ => rfl
  | cons action actions induction =>
      intro db consistent
      rw [run_cons, run_cons, induction _ (consistent.step host action),
        consistent.entry_step host action]

/-! ## Getting an alert by its id -/

theorem get_leads (db : Redis) {id : Nat} {identifier : String} (numbered : id ≠ 0)
    (leads : db.alertsIds id = some identifier) (nonempty : identifier ≠ "") (die new : Bool) :
    db.get none (some id) die new = db.getIdentified identifier die new := by
  have kept : (db.alertsIds id).filter (fun identifier => identifier ≠ "") =
      some identifier := by
    simp [leads, nonempty]
  unfold get
  rw [Option.getD_some, if_pos numbered, kept]

theorem Consistent.get_alertId (consistent : db.Consistent) {identifier : String}
    {alert : Alert} (found : db.alerts identifier = some alert) (nonempty : identifier ≠ "")
    (die new : Bool) : db.get none (some alert.alertId) die new = .ok (some alert) := by
  obtain ⟨numbered, leads⟩ := consistent.numbered identifier alert found
  rw [get_leads db numbered leads nonempty, getIdentified, found]

/-- After a `reset` the id of an alert that is gone leads to a new, empty alert. -/
theorem Consistent.get_after_reset (consistent : db.Consistent) {identifier : String}
    {alert : Alert} (found : db.alerts identifier = some alert) (nonempty : identifier ≠ "") :
    db.reset.get none (some alert.alertId) false true = .ok (some .new) := by
  obtain ⟨numbered, leads⟩ := consistent.numbered identifier alert found
  rw [get_leads db.reset numbered leads nonempty]
  rfl

/-- The ids lead to stored alerts alone. -/
def Inverse (db : Redis) : Prop :=
  ∀ id identifier, db.alertsIds id = some identifier →
    ∃ alert, db.alerts identifier = some alert ∧ alert.alertId = id

theorem Inverse.get_gone (inverse : db.Inverse) {id : Nat} (numbered : id ≠ 0)
    (gone : ∀ identifier alert, db.alerts identifier = some alert → alert.alertId ≠ id)
    (new : Bool) : db.get none (some id) false new = .ok none := by
  have nowhere : db.alertsIds id = none := by
    cases leads : db.alertsIds id with
    | none => rfl
    | some identifier =>
        obtain ⟨alert, found, same⟩ := inverse id identifier leads
        exact (gone identifier alert found same).elim
  simp [get, numbered, nowhere]

theorem Inverse.set_new (inverse : db.Inverse) {alert : Alert}
    (unnumbered : alert.alertId = 0) (absent : db.alerts alert.identifier = none) :
    (db.set alert).Inverse := by
  intro id identifier leads
  rw [alerts_set, if_pos unnumbered]
  rw [set, if_pos unnumbered] at leads
  by_cases here : id = db.alertsId + 1
  · simp only [here, Function.update_self, Option.some.injEq] at leads
    rw [if_pos leads.symm]
    exact ⟨_, rfl, here.symm⟩
  · simp only [Function.update_of_ne here] at leads
    obtain ⟨stored, found, same⟩ := inverse id identifier leads
    have other : identifier ≠ alert.identifier := by
      rintro rfl
      rw [absent] at found
      cases found
    rw [if_neg other]
    exact ⟨stored, found, same⟩

theorem Inverse.set_stored (inverse : db.Inverse) {alert stored : Alert}
    (found : db.alerts alert.identifier = some stored) (numbered : alert.alertId ≠ 0)
    (same : alert.alertId = stored.alertId) : (db.set alert).Inverse := by
  intro id identifier leads
  rw [alerts_set, if_neg numbered]
  rw [set, if_neg numbered] at leads
  obtain ⟨other, found', isId⟩ := inverse id identifier leads
  by_cases here : identifier = alert.identifier
  · rw [here, found, Option.some.injEq] at found'
    rw [if_pos here]
    exact ⟨alert, rfl, by rw [same, found', isId]⟩
  · rw [if_neg here]
    exact ⟨other, found', isId⟩

theorem Inverse.delete (inverse : db.Inverse) (consistent : db.Consistent)
    {identifier : String} {alert : Alert} (found : db.alerts identifier = some alert) :
    (db.delete alert).Inverse := by
  have named := consistent.named identifier alert found
  intro id other leads
  by_cases here : id = alert.alertId
  · simp [Redis.delete, here] at leads
  · simp only [Redis.delete, Function.update_of_ne here] at leads
    obtain ⟨stored, found', same⟩ := inverse id other leads
    have differ : other ≠ alert.identifier := by
      rintro rfl
      rw [named, found, Option.some.injEq] at found'
      exact here (by rw [found', same])
    refine ⟨stored, ?_, same⟩
    simp only [Redis.delete, Function.update_of_ne differ, found']

theorem Inverse.raise (inverse : db.Inverse) (consistent : db.Consistent) (host : Host)
    (logdict : LogDict) :
    (db.set (((db.alerts (host.identifierOf logdict)).getD .new).handle
      host logdict)).Inverse := by
  cases found : db.alerts (host.identifierOf logdict) with
  | none =>
      apply inverse.set_new
      · rfl
      · exact found
  | some stored =>
      exact inverse.set_stored found (consistent.numbered _ stored found).1 rfl

/-- Only `reset` leaves ids that lead nowhere. -/
theorem Inverse.step (inverse : db.Inverse) (consistent : db.Consistent) (host : Host)
    {action : Action} (kept : action ≠ .reset) : (db.step host action).Inverse := by
  cases action with
  | handleError logdict =>
      rw [step_of_logdict host rfl]
      exact inverse.raise consistent host logdict
  | alertRaise message messagePub cat level alertType =>
      rw [step_of_logdict host rfl]
      exact inverse.raise consistent host _
  | close identifier =>
      simp only [Redis.step, perform, close_eq]
      cases found : db.alerts identifier with
      | none => exact inverse
      | some stored =>
          have named := consistent.named identifier stored found
          have found' : db.alerts stored.identifier = some stored := by rw [named, found]
          exact inverse.set_stored found' (consistent.numbered _ stored found).1 rfl
  | delete identifier =>
      simp only [Redis.step, perform, deleteIdentified_eq]
      cases found : db.alerts identifier with
      | none => exact inverse
      | some stored => exact inverse.delete consistent found
  | reset => exact (kept rfl).elim
  | deleteAll =>
      intro id identifier leads
      cases leads

/-- As long as nothing is reset the two hashes are inverse to each other. -/
theorem inverse_of_run (host : Host) (actions : List Action)
    (kept : ∀ action ∈ actions, action ≠ .reset) :
    (run (Redis.step host) .empty actions).Inverse := by
  have fitting : Along (fun _ action => action ≠ .reset) (Redis.step host) .empty actions :=
    along_forall_iff.mpr kept
  have both := run_keeps (fun db => db.Consistent ∧ db.Inverse)
    (fun db action holds fits =>
      ⟨holds.1.step host action, holds.2.step holds.1 host fits⟩)
    ⟨consistent_empty, fun id identifier leads => by cases leads⟩ fitting
  exact both.2

/-- What the alerts are when the ledger says what was raised. -/
structure Accounted (ledger : Ledger String) (db : Redis) : Prop where
  counted : db.entry = ledger
  distinct : ∀ left right alert other, db.alerts left = some alert →
    db.alerts right = some other → alert.alertId = other.alertId → left = right
  byId : ∀ identifier alert, db.alerts identifier = some alert → identifier ≠ "" →
    ∀ die new, db.get none (some alert.alertId) die new = .ok (some alert)

/-- In every run the alerts count the raises since they were removed, each has an id of
its own, and without a reset an id that no alert has gets nothing. -/
theorem accounted_of_run (host : Host) (actions : List Action) :
    Accounted (run (Ledger.step .reopen host.identifierOf id) (fun _ => none) actions)
        (run (Redis.step host) .empty actions) ∧
      ((∀ action ∈ actions, action ≠ .reset) → ∀ id new, id ≠ 0 →
        (∀ identifier alert, (run (Redis.step host) .empty actions).alerts identifier =
          some alert → alert.alertId ≠ id) →
        (run (Redis.step host) .empty actions).get none (some id) false new = .ok none) := by
  have consistent := consistent_of_run host actions
  constructor
  · constructor
    · exact entry_of_run host actions
    · intro left right alert other found found' same
      exact consistent.alertId_injective found found' same
    · intro identifier alert found nonempty die new
      exact consistent.get_alertId found nonempty die new
  · intro kept id new numbered gone
    exact (inverse_of_run host actions kept).get_gone numbered gone new

end Redis

/-! ## What the alerts should be -/

/-- By what errors are told apart. -/
structure Key where
  message : String
  messagePub : String
  cat : String
  alertType : String
  deriving DecidableEq, Repr

def LogDict.key (logdict : LogDict) : Key where
  message := logdict.message
  messagePub := logdict.publicText.getD ""
  cat := logdict.cat.getD ""
  alertType := logdict.alertType.getD "event_system"

/-- Where the handler stores the alert of a key. -/
def Host.place (host : Host) (key : Key) : String :=
  host.getIdentifier key.message key.messagePub key.cat "event_system"

/-- The store, and what was raised, key by key: the first raise of a key makes a new
alert. -/
structure World where
  db : Redis
  ledger : Ledger Key

namespace World

def start : World := ⟨.empty, fun _ => none⟩

def step (host : Host) (world : World) (action : Action) : World where
  db := world.db.step host action
  ledger := world.ledger.step .new LogDict.key host.place action

/-- Every key that was raised since its alert was last removed has an alert of its own
with the count and the status of the ledger, and there are no other alerts.  No two
alerts share an id, and an id gives its alert or, when there is none, nothing. -/
structure AsClaimed (host : Host) (world : World) : Prop where
  stored : ∀ key count status, world.ledger key = some (count, status) →
    ∃ alert, world.db.alerts (host.place key) = some alert ∧
      alert.count = count ∧ alert.status = status
  distinct : ∀ key other, world.ledger key ≠ none → world.ledger other ≠ none →
    host.place key = host.place other → key = other
  only : ∀ identifier alert, world.db.alerts identifier = some alert →
    ∃ key, world.ledger key ≠ none ∧ host.place key = identifier
  unique : ∀ left right alert other, world.db.alerts left = some alert →
    world.db.alerts right = some other → alert.alertId = other.alertId → left = right
  byId : ∀ identifier alert, world.db.alerts identifier = some alert →
    world.db.get none (some alert.alertId) false true = .ok (some alert)
  gone : ∀ id alert, id ≠ 0 → world.db.get none (some id) false true = .ok (some alert) →
    ∃ identifier, world.db.alerts identifier = some alert ∧ alert.alertId = id

/-- Nothing was raised yet. -/
structure Quiet (world : World) : Prop where
  alerts : ∀ identifier, world.db.alerts identifier = none
  alertsIds : ∀ id, world.db.alertsIds id = none
  ledger : ∀ key, world.ledger key = none

variable {world : World} {host : Host} {action : Action}

theorem Quiet.step (quiet : world.Quiet) (calm : action.logdict = none) :
    (world.step host action).Quiet := by
  cases action with
  | handleError logdict => cases calm
  | alertRaise message messagePub cat level alertType => cases calm
  | close identifier =>
      have same : world.db.step host (.close identifier) = world.db := by
        simp [Redis.step, Redis.perform, Redis.close_eq, quiet.alerts]
      constructor
      · simpa [World.step, same] using quiet.alerts
      · simpa [World.step, same] using quiet.alertsIds
      · simp [World.step, Ledger.step, quiet.ledger]
  | delete identifier =>
      have same : world.db.step host (.delete identifier) = world.db := by
        simp [Redis.step, Redis.perform, Redis.deleteIdentified_eq, quiet.alerts]
      constructor
      · simpa [World.step, same] using quiet.alerts
      · simpa [World.step, same] using quiet.alertsIds
      · simp [World.step, Ledger.step, quiet.ledger]
  | reset =>
      constructor
      · exact fun _ => rfl
      · exact quiet.alertsIds
      · exact fun _ => rfl
  | deleteAll =>
      constructor
      · exact fun _ => rfl
      · exact fun _ => rfl
      · exact fun _ => rfl

theorem Quiet.asClaimed (quiet : world.Quiet) (host : Host) : world.AsClaimed host := by
  constructor
  · intro key count status raised
    rw [quiet.ledger] at raised
    cases raised
  · intro key other raised
    exact (raised (quiet.ledger key)).elim
  · intro identifier alert found
    rw [quiet.alerts] at found
    cases found
  · intro left right alert other found
    rw [quiet.alerts] at found
    cases found
  · intro identifier alert found
    rw [quiet.alerts] at found
    cases found
  · intro id alert numbered found
    simp [Redis.get, numbered, quiet.alertsIds] at found

/-- The first raise closes its new alert and reopens it. -/
theorem Quiet.not_asClaimed (quiet : world.Quiet) {logdict : LogDict}
    (raises : action.logdict = some logdict) : ¬ (world.step host action).AsClaimed host := by
  intro claimed
  have raised : (world.step host action).ledger logdict.key = some (1, .new) := by
    simp [World.step, Ledger.step_of_logdict raises, Ledger.raise, quiet.ledger]
  obtain ⟨alert, found, _, isNew⟩ := claimed.stored _ _ _ raised
  have stored : (world.step host action).db.entry (host.place logdict.key) =
      some (1, .reopen) := by
    have place : host.place logdict.key = host.identifierOf logdict := rfl
    rw [World.step, Redis.step_of_logdict host raises, Redis.entry_raise, place]
    simp [Ledger.raise, Redis.entry, quiet.alerts]
  simp [Redis.entry, found, isNew] at stored

/-- Along a run the alerts are what they should be exactly as long as nothing is
raised. -/
theorem asClaimed_iff (host : Host) (actions : List Action) :
    Along (fun world action => (world.step host action).AsClaimed host) (World.step host)
        start actions ↔
      ∀ action ∈ actions, action.logdict = none := by
  have calm : Along (fun world action => (world.step host action).AsClaimed host)
      (World.step host) start actions ↔
      Along (fun _ action => action.logdict = none) (World.step host) start actions := by
    apply along_iff Quiet
    · constructor
      · exact fun _ => rfl
      · exact fun _ => rfl
      · exact fun _ => rfl
    · intro world action quiet
      constructor
      · intro claimed
        by_contra raises
        obtain ⟨logdict, raises⟩ := Option.ne_none_iff_exists'.mp raises
        exact quiet.not_asClaimed raises claimed
      · intro calm
        exact (quiet.step calm).asClaimed host
    · intro world action quiet calm
      exact quiet.step calm
  exact calm.trans along_forall_iff

/-- The digest of one text; a text without braces is replaced by itself. -/
def oneDigest : Host where
  md5String text :=
    if text = "random message 4__color.red_event_system" then
      "bf745070d02915bad0246f98dd6daf2d"
    else text
  textReplace content := content

/-- An alert that is raised for the first time is reopened. -/
theorem first_alert_reopened :
    ¬ Along (fun world action => (world.step oneDigest action).AsClaimed oneDigest)
      (World.step oneDigest) start
      [.alertRaise "random message 4" "" (some "color.red") 20 (some "event_operator")] := by
  intro claimed
  have quiet : start.Quiet := ⟨fun _ => rfl, fun _ => rfl, fun _ => rfl⟩
  exact quiet.not_asClaimed rfl claimed.1

end World

end JumpscaleX.Alerts
