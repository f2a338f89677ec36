import JumpscaleX.RedisServer
import JumpscaleX.Library.Runs

/-!
# Cache categories

`CacheCategory` of `Cache.py`: the categories of a cache in the keys of one redis
database.  The database is not part of the repository; what the cache relies on is
stated with it.
-/

namespace JumpscaleX.Caches

open Runs Stateful

/-- What a cache keeps of a value: the epoch up to which it is good, and the value. -/
abbrev Pickled := Int × PyVal

/-- The characters that a pattern of `KEYS` does not take literally. -/
def special : List Char := ['*', '?', '[', ']', '\\']

/-- A redis database, with times in milliseconds. -/
structure Redis where
  State : Type
  empty : State
  get : State → Nat → String → Option Pickled
  /-- The numbers of seconds that `SET` takes behind `EX`. -/
  accepts : Int → Bool
  set : State → Nat → String → Pickled → Int → Except Exn State
  delete : State → Nat → String → State
  /-- Whether a pattern of `KEYS` fits a key. -/
  globs : String → String → Bool
  keys : State → Nat → String → List String
  get_empty : ∀ now key, get empty now key = none
  pos_of_accepts : ∀ ex, accepts ex = true → 0 < ex
  set_rejected : ∀ state now key data ex, accepts ex = false →
    ∃ error, set state now key data ex = .error error
  set_accepted : ∀ state now key data ex, accepts ex = true →
    ∃ after, set state now key data ex = .ok after ∧
      ∀ time, now ≤ time → ∀ other, get after time other =
        if other = key then (if time < now + 1000 * ex.toNat then some data else none)
        else get state time other
  get_delete : ∀ state now key time, now ≤ time → ∀ other,
    get (delete state now key) time other = if other = key then none else get state time other
  nodup_keys : ∀ state now pattern, (keys state now pattern).Nodup
  mem_keys : ∀ state now pattern key,
    key ∈ keys state now pattern ↔ (get state now key).isSome = true ∧ globs pattern key = true
  globs_star : ∀ front : String, (∀ char ∈ front.toList, char ∉ special) →
    ∀ key, globs (front ++ "*") key = true ↔ front.toList <+: key.toList

/-- A category of the cache. -/
structure Category where
  id : String
  expiration : Int

namespace Category

/-- `_key_get`. -/
def keyGet (category : Category) (key : String) : String :=
  "cache:" ++ category.id ++ ":" ++ key

/-- The pattern of the keys of a category. -/
def pattern (category : Category) : String :=
  "cache:" ++ category.id ++ ":*"

end Category

/-- What `get` is called with.  A method fails or returns a value each time it is
called, and it takes its time. -/
structure GetCall where
  key : String
  method : Option (Nat → Except Exn PyVal)
  took : Nat
  expire : Option Int
  refresh : Bool
  retry : Int
  die : Bool

/-- What `get` returns: a value, or the error of its method. -/
inductive Reply where
  | value (val : PyVal)
  | failure (error : Exn)

/-- How a `get` ended, and how often it called its method. -/
structure Got (State : Type) where
  reply : Except Exn Reply
  calls : Nat
  state : State

/-- The loop over `retry`: how the last call ended, and the number of calls. -/
def callMethod (method : Nat → Except Exn PyVal) : Nat → Nat → Option (Except Exn PyVal) × Nat
  | 0, nr => (none, nr)
  | left + 1, nr =>
      match method nr with
      | .ok val => (some (.ok val), nr + 1)
      | .error error =>
          if left = 0 then (some (.error error), nr + 1) else callMethod method left (nr + 1)

/-- The values that the method of a `get` must not return. -/
def unusable (val : PyVal) : Bool :=
  val = .none || val = .str ""

namespace Category

variable (redis : Redis) (category : Category)

def delete (state : redis.State) (now : Nat) (key : String) : redis.State :=
  redis.delete state now (category.keyGet key)

def set (state : redis.State) (now : Nat) (key : String) (value : PyVal)
    (expire : Option Int) : Except Exn redis.State :=
  let expire := expire.getD category.expiration
  redis.set state now (category.keyGet key) ((now / 1000 : Nat) + expire, value) expire

/-- `exists`. -/
def isThere (state : redis.State) (now : Nat) (key : String) : Bool :=
  (redis.get state now (category.keyGet key)).isSome

/-- The part of `get` behind a cache miss. -/
def fetch (state : redis.State) (now : Nat) (call : GetCall) : Got redis.State :=
  let expire := call.expire.getD category.expiration
  match call.method with
  | none =>
      ⟨.error (.runtime ("Cannot get '" ++ call.key ++ "' from cache,not found & method None")),
        0, state⟩
  | some method =>
      match callMethod method call.retry.toNat 0 with
      | (some (.ok val), calls) =>
          if unusable val = true then
            ⟨.error (.runtime "cache method cannot return None or empty string."), calls, state⟩
          else
            match category.set redis state (now + call.took) call.key val (some expire) with
            | .ok after => ⟨.ok (.value val), calls, after⟩
            | .error error => ⟨.error error, calls, state⟩
      | (some (.error error), calls) =>
          ⟨if call.die = true then .error error else .ok (.failure error), calls, state⟩
      -- Without a try, `val` has no value.
      | (none, calls) => ⟨.error (.unboundLocalError "val"), calls, state⟩

def get (state : redis.State) (now : Nat) (call : GetCall) : Got redis.State :=
  if call.refresh = true then
    category.fetch redis (category.delete redis state now call.key) now call
  else
    match redis.get state now (category.keyGet call.key) with
    | some (expireEpoch, res) =>
        if expireEpoch < (now / 1000 : Nat) then
          category.fetch redis (category.delete redis state now call.key) now call
        else ⟨.ok (.value res), 0, state⟩
    | none => category.fetch redis state now call

/-- What stands behind the last colon. -/
def lastPart (item : String) : String :=
  (PyText.split ':' item).getLastD ""

/-- `list`. -/
def listKeys (state : redis.State) (now : Nat) : List String :=
  (redis.keys state now category.pattern).map lastPart

def reset (state : redis.State) (now : Nat) : redis.State :=
  (category.listKeys redis state now).foldl
    (fun state item => category.delete redis state now item) state

end Category

/-! ## Runs -/

inductive Call where
  | set (key : String) (value : PyVal) (expire : Option Int)
  | get (call : GetCall)
  | delete (key : String)
  | isThere (key : String)
  | list
  | reset

/-- A call on a category, some time after the call before it. -/
structure Action where
  wait : Nat
  category : Category
  call : Call

/-- What a call returned. -/
inductive Result where
  | done (outcome : Except Exn Unit)
  | got (reply : Except Exn Reply) (calls : Nat)
  | there (answer : Bool)
  | listed (keys : List String)

/-- One call on a category at a time. -/
def perform (redis : Redis) (state : redis.State) (now : Nat) (category : Category) :
    Call → Result × redis.State
  | .set key value expire =>
      match category.set redis state now key value expire with
      | .ok after => (.done (.ok ()), after)
      | .error error => (.done (.error error), state)
  | .get call =>
      let got := category.get redis state now call
      (.got got.reply got.calls, got.state)
  | .delete key => (.done (.ok ()), category.delete redis state now key)
  | .isThere key => (.there (category.isThere redis state now key), state)
  | .list => (.listed (category.listKeys redis state now), state)
  | .reset => (.done (.ok ()), category.reset redis state now)

/-! ## Maps with expiry -/

/-- For each category a map from keys to values that are good before a time. -/
def Maps := String → String → Option (PyVal × Nat)

namespace Maps

/-- Maps without any key. -/
def empty : Maps := fun _ _ => none

/-- The value of a key, unless its time is over. -/
def live (maps : Maps) (now : Nat) (id key : String) : Option PyVal :=
  match maps id key with
  | some (value, deadline) => if now < deadline then some value else none
  | none => none

/-- One key of one category changes. -/
def put (maps : Maps) (id key : String) (entry : Option (PyVal × Nat)) : Maps :=
  fun otherId otherKey => if otherId = id ∧ otherKey = key then entry else maps otherId otherKey

/-- One category loses its keys. -/
def clear (maps : Maps) (id : String) : Maps :=
  fun otherId otherKey => if otherId = id then none else maps otherId otherKey

/-- A `get` that called its method keeps what it returns. -/
def keep (maps : Maps) (now : Nat) (category : Category) (call : GetCall) :
    Except Exn Reply → Nat → Maps
  | .ok (.value value), _ + 1 =>
      maps.put category.id call.key
        (some (value, now + call.took + 1000 * (call.expire.getD category.expiration).toNat))
  | _, _ => maps

/-- A `get` that is to refresh the value removes it first. -/
def refreshed (maps : Maps) (category : Category) (call : GetCall) : Maps :=
  if call.refresh = true then maps.put category.id call.key none else maps

/-- What a call does to the maps. -/
def after (maps : Maps) (now : Nat) (category : Category) : Call → Result → Maps
  | .set key value expire, _ =>
      maps.put category.id key
        (some (value, now + 1000 * (expire.getD category.expiration).toNat))
  | .get call, .got reply calls =>
      (maps.refreshed category call).keep now category call reply calls
  | .delete key, _ => maps.put category.id key none
  | .reset, _ => maps.clear category.id
  | _, _ => maps

end Maps

/-- A database at a time, beside the maps that it is to represent. -/
structure World (redis : Redis) where
  now : Nat
  state : redis.State
  maps : Maps

/-- The time that a call takes. -/
def Call.took : Call → Nat
  | .get call => call.took
  | _ => 0

namespace World

variable {redis : Redis}

/-- An empty database. -/
def start : World redis :=
  ⟨0, redis.empty, Maps.empty⟩

/-- The time passes before a call. -/
def waited (world : World redis) (wait : Nat) : World redis :=
  { world with now := world.now + wait }

/-- What a call returns. -/
def result (world : World redis) (category : Category) (call : Call) : Result :=
  (perform redis world.state world.now category call).1

/-- The world behind a call. -/
def called (world : World redis) (category : Category) (call : Call) : World redis where
  now := world.now + call.took
  state := (perform redis world.state world.now category call).2
  maps := world.maps.after world.now category call (world.result category call)

def step (world : World redis) (action : Action) : World redis :=
  (world.waited action.wait).called action.category action.call

/-- From now on every key of every category has the value of its map, or none. -/
def Represents (world : World redis) : Prop :=
  ∀ time, world.now ≤ time → ∀ (category : Category) (key : String),
    match world.maps.live time category.id key with
    | some value => ∃ epoch, redis.get world.state time (category.keyGet key) =
        some (epoch, value) ∧ ((time / 1000 : Nat) : Int) ≤ epoch
    | none => redis.get world.state time (category.keyGet key) = none

end World

/-- A `get` called its method once, and again as long as it failed, but at most
`retry` times; it returns what the last call returned. -/
structure Called (call : GetCall) (method : Nat → Except Exn PyVal) (reply : Except Exn Reply)
    (calls : Nat) : Prop where
  called : 0 < calls
  atMost : calls ≤ max 1 call.retry.toNat
  failed : ∀ nr, nr + 1 < calls → ∃ error, method nr = .error error
  returned : ∀ val, method (calls - 1) = .ok val → reply =
    if unusable val = true then
      .error (.runtime "cache method cannot return None or empty string.")
    else .ok (.value val)
  raised : ∀ error, method (calls - 1) = .error error → calls = max 1 call.retry.toNat ∧
    reply = if call.die = true then .error error else .ok (.failure error)

/-- A `get` returns the value of the map, or else what its method returns. -/
def Maps.Answers (maps : Maps) (now : Nat) (category : Category) (call : GetCall)
    (reply : Except Exn Reply) (calls : Nat) : Prop :=
  match (maps.refreshed category call).live now category.id call.key with
  | some value => reply = .ok (.value value) ∧ calls = 0
  | none =>
      match call.method with
      | some method => Called call method reply calls
      | none => calls = 0 ∧ ∃ message, reply = .error (.runtime message)

/-- A call returns what the maps say. -/
def Maps.Returns (maps : Maps) (now : Nat) (category : Category) : Call → Result → Prop
  | .get call, .got reply calls => maps.Answers now category call reply calls
  | .isThere key, .there answer => answer = (maps.live now category.id key).isSome
  | .list, .listed keys =>
      keys.Nodup ∧ ∀ key, key ∈ keys ↔ (maps.live now category.id key).isSome = true
  | .set _ _ _, .done outcome => outcome = .ok ()
  | .delete _, .done outcome => outcome = .ok ()
  | .reset, .done outcome => outcome = .ok ()
  | _, _ => False

/-- An action returns what the maps say, and the database represents the maps
behind it. -/
def AsClaimed {redis : Redis} (world : World redis) (action : Action) : Prop :=
  let world := world.waited action.wait
  world.maps.Returns world.now action.category action.call
      (world.result action.category action.call) ∧
    (world.called action.category action.call).Represents

end JumpscaleX.Caches
