import JumpscaleX.Library.Runs
import Mathlib.Logic.Function.Basic

/-!
# The alert handler

`AlertHandler`: errors are stored in redis as alerts, one for each identifier.  Two
redis hashes hold the alerts under their identifiers and the identifiers under the
ids of the alerts, a counter holds the last id.  The json text of an alert is taken
as the alert.  Times, events, logs and tracebacks of an alert are left out.
-/

namespace JumpscaleX.Alerts

open Runs Stateful

/-- What a call of the handler raises; redis takes no `None` as a field. -/
inductive Problem
  | runtimeError (message : String)
  | dataError
  | attributeError (name : String)
  deriving DecidableEq, Repr

/-- The values of `status`, in the order of the enumeration. -/
inductive Status
  | closed
  | new
  | opened
  | reopen
  deriving DecidableEq, Repr

/-- The default of an enumeration is its first value. -/
def Status.default : Status := .closed

inductive AlertType
  | bug
  | question
  | eventSystem
  | eventMonitor
  | eventOperator
  deriving DecidableEq, Repr

/-- The entries of a logdict that the handler looks for; it does not look at
`alert_type`.  A category may be missing or `None`. -/
structure LogDict where
  message : String
  publicText : Option String
  cat : Option String
  level : Int
  alertType : Option String
  deriving DecidableEq, Repr

structure Alert where
  alertId : Nat
  identifier : String
  alertType : AlertType
  level : Int
  message : String
  messagePub : String
  cat : String
  count : Nat
  status : Status
  deriving DecidableEq, Repr

/-- `schema_alert.new()`. -/
def Alert.new : Alert where
  alertId := 0
  identifier := ""
  alertType := .bug
  level := 0
  message := ""
  messagePub := ""
  cat := ""
  count := 0
  status := .default

/-- The keys `alerts`, `alertsid` and `alertsids` of redis. -/
structure Redis where
  alerts : String → Option Alert
  alertsId : Nat
  alertsIds : Nat → Option String

def Redis.empty : Redis where
  alerts _ := none
  alertsId := 0
  alertsIds _ := none

/-- What the handler calls: `j.data.hash.md5_string` and `j.core.tools.text_replace`. -/
structure Host where
  md5String : String → String
  textReplace : String → String

/-- `get_identifier`. -/
def Host.getIdentifier (host : Host) (msg msgPub : String) (cat alertType : Option String) :
    String :=
  host.md5String
    ("_".intercalate [msg, msgPub, cat.getD "", alertType.getD "event_system"])

/-- The identifier that `_handle_error` works with. -/
def Host.identifierOf (host : Host) (logdict : LogDict) : String :=
  host.getIdentifier logdict.message (logdict.publicText.getD "") (logdict.cat.getD "")
    "event_system"

namespace Redis

variable (db : Redis)

/-- The end of `get`, with an identifier. -/
def getIdentified (identifier : String) (die new : Bool) : Except Problem (Option Alert) :=
  match db.alerts identifier with
  | some alert => .ok (some alert)
  | none =>
      if die then
        .error (.runtimeError s!"could not find alert with identifier:{identifier}")
      else if new then .ok (some .new)
      else .ok none

/-- `get`.  An id is looked up first. -/
def get (identifier : Option String) (alertId : Option Nat) (die new : Bool) :
    Except Problem (Option Alert) :=
  if alertId.getD 0 ≠ 0 then
    match (db.alertsIds (alertId.getD 0)).filter (fun identifier => identifier ≠ "") with
    | some identifier => db.getIdentified identifier die new
    | none =>
        if die then
          .error (.runtimeError s!"could not find alert with id:{alertId.getD 0}")
        else .ok none
  else
    match identifier with
    | some identifier => db.getIdentified identifier die new
    | none => .error .dataError

/-- `set`.  An alert without an id gets the next one. -/
def set (alert : Alert) : Redis :=
  if alert.alertId = 0 then
    { alerts := Function.update db.alerts alert.identifier
        (some { alert with alertId := db.alertsId + 1 })
      alertsId := db.alertsId + 1
      alertsIds := Function.update db.alertsIds (db.alertsId + 1) (some alert.identifier) }
  else
    { db with alerts := Function.update db.alerts alert.identifier (some alert) }

/-- `delete`. -/
def delete (alert : Alert) : Redis :=
  { db with
    alertsIds := Function.update db.alertsIds alert.alertId none
    alerts := Function.update db.alerts alert.identifier none }

/-- `delete_all`. -/
def deleteAll (_ : Redis) : Redis := .empty

/-- `reset`. -/
def reset : Redis :=
  { db with alerts := fun _ => none }

end Redis

/-- The two tests of `_handle_error` on the status. -/
def Status.raised (status : Status) : Status :=
  let status := if status = .new then .opened else status
  if status = .closed then .reopen else status

/-- The alert after an error was added to it. -/
def Alert.handle (host : Host) (logdict : LogDict) (alert : Alert) : Alert :=
  { alert with
    status := alert.status.raised
    identifier := host.identifierOf logdict
    alertType := .eventSystem
    level := logdict.level
    message := host.textReplace logdict.message
    messagePub := logdict.publicText.getD ""
    cat := logdict.cat.getD ""
    count := alert.count + 1 }

/-- `_handle_error`. -/
def Redis.handleError (host : Host) (logdict : LogDict) (db : Redis) : Except Problem Redis := do
  match ← db.get (host.identifierOf logdict) none false true with
  | some alert => return db.set (alert.handle host logdict)
  | none => throw (.attributeError "status")

/-- The logdict that `alert_raise` makes. -/
def alertRaise (message messagePub : String) (cat : Option String) (level : Int)
    (alertType : Option String) : LogDict where
  message := message
  publicText := messagePub
  cat := cat
  level := level
  alertType := alertType

/-- What is done to the alerts.  A stored alert is closed or deleted by whoever has
it from the handler. -/
inductive Action
  | handleError (logdict : LogDict)
  | alertRaise (message messagePub : String) (cat : Option String) (level : Int)
      (alertType : Option String)
  | close (identifier : String)
  | delete (identifier : String)
  | reset
  | deleteAll
  deriving DecidableEq, Repr

/-- The logdict that an action raises, if any. -/
def Action.logdict : Action → Option LogDict
  | .handleError logdict => some logdict
  | .alertRaise message messagePub cat level alertType =>
      some (Alerts.alertRaise message messagePub cat level alertType)
  | _ => none

/-- `alert.status = "closed"`, and the alert is set. -/
def Redis.close (identifier : String) (db : Redis) : Except Problem Redis := do
  match ← db.get identifier none false false with
  | some alert => return db.set { alert with status := .closed }
  | none => return db

def Redis.deleteIdentified (identifier : String) (db : Redis) : Except Problem Redis := do
  match ← db.get identifier none false false with
  | some alert => return db.delete alert
  | none => return db

def Redis.perform (host : Host) (db : Redis) : Action → Except Problem Redis
  | .handleError logdict => db.handleError host logdict
  | .alertRaise message messagePub cat level alertType =>
      db.handleError host (Alerts.alertRaise message messagePub cat level alertType)
  | .close identifier => db.close identifier
  | .delete identifier => db.deleteIdentified identifier
  | .reset => .ok db.reset
  | .deleteAll => .ok db.deleteAll

def Redis.step (host : Host) (db : Redis) (action : Action) : Redis :=
  match db.perform host action with
  | .ok reached => reached
  | .error _ => db

/-! ## What the steps do -/

namespace Redis

variable {db : Redis}

/-- `get` with an identifier. -/
theorem get_identified (identifier : String) (new : Bool) :
    db.get (some identifier) none false new =
      .ok ((db.alerts identifier).or (if new then some .new else none)) := by
  unfold get getIdentified
  cases found : db.alerts identifier with
  | some alert => simp [found]
  | none => cases new <;> simp [found]

theorem handleError_eq (host : Host) (logdict : LogDict) :
    db.handleError host logdict =
      .ok (db.set (((db.alerts (host.identifierOf logdict)).getD .new).handle host logdict)) := by
  rw [handleError, get_identified]
  cases found : db.alerts (host.identifierOf logdict) <;> rfl

theorem close_eq (identifier : String) :
    db.close identifier = .ok (match db.alerts identifier with
      | some alert => db.set { alert with status := .closed }
      | none => db) := by
  rw [close, get_identified]
  cases found : db.alerts identifier <;> rfl

theorem deleteIdentified_eq (identifier : String) :
    db.deleteIdentified identifier = .ok (match db.alerts identifier with
      | some alert => db.delete alert
      | none => db) := by
  rw [deleteIdentified, get_identified]
  cases found : db.alerts identifier <;> rfl

/-- No action fails. -/
theorem step_of_logdict (host : Host) {action : Action} {logdict : LogDict}
    (raises : action.logdict = some logdict) :
    db.step host action =
      db.set (((db.alerts (host.identifierOf logdict)).getD .new).handle host logdict) := by
  cases action with
  | handleError given =>
      cases raises
      simp only [step, perform, handleError_eq]
  | alertRaise message messagePub cat level alertType =>
      cases raises
      simp only [step, perform, handleError_eq]
  | close => cases raises
  | delete => cases raises
  | reset => cases raises
  | deleteAll => cases raises

theorem alerts_set (alert : Alert) (identifier : String) :
    (db.set alert).alerts identifier =
      if identifier = alert.identifier then
        some (if alert.alertId = 0 then { alert with alertId := db.alertsId + 1 } else alert)
      else db.alerts identifier := by
  unfold set
  by_cases same : identifier = alert.identifier
  · subst same
    split <;> simp
  · split <;> simp [same]

end Redis

end JumpscaleX.Alerts
