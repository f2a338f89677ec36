import JumpscaleX.Library.Runs
import JumpscaleX.Library.TextBytes
import JumpscaleX.Value

/-!
# Secrets

The secret of a machine: redis keeps it, `MyEnv` keeps a copy of it and
`MyIdentities` the box made from it.
-/

namespace JumpscaleX.Secrets

open Fallible Stateful Runs TextBytes

/-- `hashlib.md5().hexdigest()` -/
structure Hash where
  md5 : Bytes → String
  length : ∀ content, (md5 content).length = 32
  ascii : ∀ content, Ascii (md5 content)

/-- A secret as it is given, a text or bytes.  Data to encrypt are given the same way. -/
inductive Secret where
  | text (text : String)
  | bytes (content : Bytes)

/-- `_tobytes`, and what `_secret_format` encodes. -/
def Secret.encoded : Secret → Bytes
  | .text written => utf8 written
  | .bytes content => content

/-- A closed box, with the key that opens it. -/
structure Cipher where
  key : Bytes
  data : Bytes
  deriving DecidableEq

structure Env where
  /-- `threebot.secret.encrypted` in redis. -/
  redis : Option Bytes
  /-- `MyEnv._secret` -/
  secret : Option String
  /-- The key of `MyIdentities._box`. -/
  box : Option Bytes
  /-- What the most recent `secret_set` made of its secret, for the record. -/
  last : Option Bytes
  deriving DecidableEq

variable (hash : Hash)

/-- `_secret_format`, as the bytes that redis keeps. -/
def secretFormat (secret : Bytes) : Bytes :=
  if secret.length ≠ 32 then utf8 (hash.md5 secret) else secret

/-- `MyEnv.secret_set`.  An empty secret is asked for. -/
def secretSet (secret : Secret) (typed : String) : EStateM Exn Env Bytes := do
  let secret ←
    if secret.encoded = [] then
      if typed.length < 32 then pure (utf8 typed) else throw .assertionError
    else pure secret.encoded
  let formatted := secretFormat hash secret
  modify (fun env => { env with redis := some formatted, last := some formatted })
  return formatted

/-- `MyEnv.secret_get` -/
def secretGet (typed : String) : EStateM Exn Env String := do
  match (← getThe Env).secret with
  | some secret => return secret
  | none =>
      let stored ←
        match (← getThe Env).redis with
        | some secret => pure secret
        | none => secretSet hash (.text "") typed
      match utf8Decode stored with
      | none => throw (.valueError "'utf-8' codec can't decode bytes")
      | some secret =>
          modify (fun env => { env with secret := some secret })
          if secret.length = 32 then return secret else throw .assertionError

/-- `MyIdentities.secret_set`: `MyEnv.secret_set` has no argument `confirm`. -/
def identitiesSecretSet : EStateM Exn Env Unit :=
  throw (.typeError "secret_set() got an unexpected keyword argument 'confirm'")

/-- `MyIdentities.box` -/
def box (typed : String) : EStateM Exn Env Bytes := do
  match (← getThe Env).box with
  | some key => return key
  | none =>
      let secret ← secretGet hash typed
      if (utf8 secret).length = 32 then
        modify (fun env => { env with box := some (utf8 secret) })
        return utf8 secret
      else throw (.valueError "The key must be exactly 32 bytes long")

/-- `MyIdentities.encrypt`.  With `hex` the box is spelled in digits, which `decrypt` reads
back. -/
def encrypt (typed : String) (data : Secret) : EStateM Exn Env Cipher := do
  let key ← box hash typed
  return ⟨key, data.encoded⟩

/-- `MyIdentities.decrypt`: an ideal box opens under its own key only. -/
def decrypt (typed : String) (cipher : Cipher) : EStateM Exn Env Bytes := do
  let key ← box hash typed
  if key = cipher.key then return cipher.data
  else throw (.valueError "Decryption failed. Ciphertext failed verification")

/-- A new process. -/
def restart (env : Env) : Env :=
  { env with secret := none, box := none }

/-- The machine, and the boxes that were closed with what `last` was before and behind it. -/
structure World where
  env : Env
  made : List (Option Bytes × Cipher)

/-- A call, with what is typed when a secret is asked for. -/
inductive Action where
  | secretSet (secret : Secret) (typed : String)
  | identitiesSecretSet (secret : Secret)
  | secretGet (typed : String)
  | encrypt (typed : String) (data : Secret)
  | decrypt (typed : String) (cipher : Cipher)
  | restart

def step (world : World) : Action → World
  | .secretSet secret typed =>
      { world with env := final (secretSet hash secret typed) world.env }
  | .identitiesSecretSet _ => { world with env := final identitiesSecretSet world.env }
  | .secretGet typed => { world with env := final (secretGet hash typed) world.env }
  | .encrypt typed data =>
      match encrypt hash typed data world.env with
      | .ok cipher env => { env := env, made := (env.last, cipher) :: world.made }
      | .error _ env => { world with env := env }
  | .decrypt typed cipher =>
      { world with env := final (decrypt hash typed cipher) world.env }
  | .restart => { world with env := restart world.env }

/-- Nothing set, nothing cached and no box closed. -/
def fresh : World where
  env := ⟨none, none, none, none⟩
  made := []

/-! ## What a machine promises -/

/-- The call reports no error. -/
def Succeeds {α : Type} (computation : EStateM Exn Env α) (env : Env) : Prop :=
  ∃ value after, computation env = .ok value after

/-- The secret read is the form of the last one set, setting the form again changes nothing,
and a closed box opens exactly while the secret is the one it was closed under. -/
structure Coherent (world : World) : Prop where
  gets : ∀ form typed, world.env.last = some form →
    ∃ secret after, secretGet hash typed world.env = .ok secret after ∧
      secret.length = 32 ∧ utf8 secret = form
  unchanged : ∀ secret typed, world.env.last = some secret.encoded →
    secretSet hash secret typed world.env = .ok secret.encoded world.env
  opens : ∀ form typed, world.env.last = some form →
    ∀ made ∈ world.made, made.1 = some form →
      ∃ after, decrypt hash typed made.2 world.env = .ok made.2.data after
  closed : ∀ form typed, world.env.last = some form →
    ∀ made ∈ world.made, made.1 ≠ some form →
      ∃ problem after, decrypt hash typed made.2 world.env = .error problem after

/-- Setting through the identities succeeds, and the machine is coherent behind the call. -/
def AsClaimed (world : World) (action : Action) : Prop :=
  (∀ secret, action = .identitiesSecretSet secret →
    Succeeds identitiesSecretSet world.env) ∧
  Coherent hash (step hash world action)

/-- The bytes are what 32 characters are written with. -/
def Readable (form : Bytes) : Prop :=
  ∃ secret, utf8Decode form = some secret ∧ secret.length = 32

/-- A first secret is asked for, and what is typed has a readable form. -/
def AskedReadable (env : Env) (typed : String) : Prop :=
  env.redis = none → typed.length < 32 → Readable (secretFormat hash (utf8 typed))

/-- What `secret_set` formats. -/
def Secret.taken (secret : Secret) (typed : String) : Bytes :=
  if secret.encoded = [] then utf8 typed else secret.encoded

/-- The secret is there, or the one typed instead is short enough. -/
def Secret.Accepted (secret : Secret) (typed : String) : Prop :=
  secret.encoded = [] → typed.length < 32

/-- A secret is not set through the identities, it is not 32 bytes for fewer characters, and
no other one was read in this process. -/
def Sound (world : World) : Action → Prop
  | .secretSet secret typed =>
      secret.Accepted typed →
        Readable (secretFormat hash (secret.taken typed)) ∧
          ∀ cached, world.env.secret = some cached →
            utf8 cached = secretFormat hash (secret.taken typed)
  | .identitiesSecretSet _ => False
  | .secretGet typed | .encrypt typed _ | .decrypt typed _ => AskedReadable hash world.env typed
  | .restart => True

/-! ## Forms -/

theorem utf8_of_utf8Decode {content : Bytes} {text : String}
    (decoded : utf8Decode content = some text) : utf8 text = content := by
  rw [utf8Decode, String.fromUTF8?] at decoded
  split at decoded
  case isTrue =>
    cases decoded
    apply List.toByteArray_inj.mp
    exact String.utf8Encode_toList
  case isFalse => cases decoded

variable {hash}

theorem length_secretFormat (secret : Bytes) : (secretFormat hash secret).length = 32 := by
  rw [secretFormat]
  split
  case isTrue =>
    rw [length_utf8_eq_iff.mpr (hash.ascii secret), hash.length]
  case isFalse same => exact not_not.mp same

theorem secretFormat_form {form : Bytes} (length : form.length = 32) :
    secretFormat hash form = form := by
  rw [secretFormat, if_neg (not_not.mpr length)]

theorem ne_nil_of_length {form : Bytes} (length : form.length = 32) : form ≠ [] := by
  intro empty
  simp [empty] at length

/-! ## Setting and reading -/

section

variable {env : Env} {form : Bytes} {secret : String} {given : Secret} {typed : String}

/-- The machine once a secret is set. -/
def Env.put (env : Env) (form : Bytes) : Env :=
  { env with redis := some form, last := some form }

theorem secretSet_accepted (accepted : given.Accepted typed) :
    secretSet hash given typed env =
      .ok (secretFormat hash (given.taken typed))
        (env.put (secretFormat hash (given.taken typed))) := by
  rw [Secret.taken]
  by_cases empty : given.encoded = []
  case pos =>
    simp only [secretSet, if_pos empty, if_pos (accepted empty)]
    rfl
  case neg =>
    simp only [secretSet, if_neg empty]
    rfl

theorem secretSet_refused (refused : ¬ given.Accepted typed) :
    secretSet hash given typed env = .error .assertionError env := by
  obtain ⟨empty, long⟩ := Classical.not_imp.mp refused
  simp only [secretSet, if_pos empty, if_neg long]
  rfl

/-- The form that is set already is set again. -/
theorem secretSet_form (length : given.encoded.length = 32)
    (stored : env.redis = some given.encoded) (last : env.last = some given.encoded) :
    secretSet hash given typed env = .ok given.encoded env := by
  have some := ne_nil_of_length length
  have accepted : given.Accepted typed := fun empty => absurd empty some
  have taken : given.taken typed = given.encoded := if_neg some
  rw [secretSet_accepted accepted, taken, secretFormat_form length]
  obtain ⟨redis, cache, box, set⟩ := env
  cases stored
  cases last
  rfl

theorem secretGet_cached (cached : env.secret = some secret) :
    secretGet hash typed env = .ok secret env := by
  obtain ⟨redis, cache, box, last⟩ := env
  cases cached
  rfl

/-- What a secret read is cached as. -/
def Env.keep (env : Env) (secret : String) : Env :=
  { env with secret := some secret }

/-- A secret in redis is read and kept. -/
theorem secretGet_stored (empty : env.secret = none) (stored : env.redis = some form)
    (decoded : utf8Decode form = some secret) :
    secretGet hash typed env =
      (if secret.length = 32 then .ok secret (env.keep secret)
      else .error .assertionError (env.keep secret)) := by
  obtain ⟨redis, cache, box, last⟩ := env
  cases empty
  cases stored
  simp only [secretGet, get_seq, return_seq, decoded, modify_seq]
  split
  case isTrue => rfl
  case isFalse => rfl

theorem secretGet_undecodable (empty : env.secret = none) (stored : env.redis = some form)
    (undecodable : utf8Decode form = none) :
    ∃ problem, secretGet hash typed env = .error problem env := by
  obtain ⟨redis, cache, box, last⟩ := env
  cases empty
  cases stored
  simp only [secretGet, get_seq, return_seq, undecodable]
  exact ⟨_, rfl⟩

/-- A first secret is asked for, and read behind that. -/
theorem secretGet_asked (empty : env.secret = none) (unset : env.redis = none)
    (short : typed.length < 32) :
    secretGet hash typed env =
      secretGet hash typed (env.put (secretFormat hash (utf8 typed))) := by
  have accepted : (Secret.text "").Accepted typed := fun _ => short
  have asked := @secretSet_accepted hash env (.text "") typed accepted
  obtain ⟨redis, cache, box, last⟩ := env
  cases empty
  cases unset
  simp only [secretGet, get_seq, return_seq, Env.put]
  rw [seq_of_ok asked]
  rfl

theorem secretGet_refused (empty : env.secret = none) (unset : env.redis = none)
    (long : ¬ typed.length < 32) :
    secretGet hash typed env = .error .assertionError env := by
  have refused : ¬ (Secret.text "").Accepted typed := fun accepted => long (accepted rfl)
  have asked := @secretSet_refused hash env (.text "") typed refused
  obtain ⟨redis, cache, box, last⟩ := env
  cases empty
  cases unset
  simp only [secretGet, get_seq]
  rw [seq_of_error asked]

/-! ## What agrees -/

/-- What is cached, boxed and closed agrees with what was set. -/
structure Inv (world : World) : Prop where
  stored : world.env.redis = world.env.last
  form : ∀ form, world.env.last = some form → form.length = 32 ∧ Readable form
  cached : ∀ secret, world.env.secret = some secret → world.env.last = some (utf8 secret)
  boxed : ∀ key, world.env.box = some key →
    ∃ secret, world.env.secret = some secret ∧ utf8 secret = key
  made : ∀ made ∈ world.made, made.1 = some made.2.key

theorem inv_fresh : Inv fresh where
  stored := rfl
  form _ impossible := nomatch impossible
  cached _ impossible := nomatch impossible
  boxed _ impossible := nomatch impossible
  made _ impossible := nomatch impossible

variable {made : List (Option Bytes × Cipher)}

/-- The secret that was set is read, and cached. -/
theorem secretGet_set (inv : Inv ⟨env, made⟩) (set : env.last = some form) :
    ∃ secret, secretGet hash typed env = .ok secret (env.keep secret) ∧
      secret.length = 32 ∧ utf8 secret = form := by
  obtain ⟨secret, decoded, length⟩ := (inv.form form set).2
  have encoded : utf8 secret = form := utf8_of_utf8Decode decoded
  apply Exists.intro secret
  constructor
  · cases cache : env.secret with
    | some cached =>
        have agree : utf8 cached = utf8 secret := by
          have both := (inv.cached cached cache).symm.trans set
          rw [encoded]
          exact Option.some.inj both
        have same : cached = secret := by
          have decodes := congrArg utf8Decode agree
          simpa using decodes
        have kept : env.keep secret = env := by
          rw [← same, Env.keep, ← cache]
        rw [secretGet_cached cache, same, kept]
    | none =>
        have stored : env.redis = some form := inv.stored.trans set
        rw [secretGet_stored cache stored decoded, if_pos length]
  · exact ⟨length, encoded⟩

/-- The box that a secret is kept in. -/
def Env.keepBox (env : Env) (key : Bytes) : Env :=
  { env with box := some key }

theorem box_cached {key : Bytes} (boxed : env.box = some key) :
    box hash typed env = .ok key env := by
  obtain ⟨redis, cache, box, last⟩ := env
  cases boxed
  rfl

theorem box_read {after : Env} (empty : env.box = none)
    (read : secretGet hash typed env = .ok secret after) (length : (utf8 secret).length = 32) :
    box hash typed env = .ok (utf8 secret) (after.keepBox (utf8 secret)) := by
  simp only [box, get_seq, empty]
  rw [seq_of_ok read, if_pos length]
  rfl

theorem box_failed {after : Env} {problem : Exn} (empty : env.box = none)
    (failed : secretGet hash typed env = .error problem after) :
    box hash typed env = .error problem after := by
  simp only [box, get_seq, empty]
  rw [seq_of_error failed]

theorem Inv.keep (inv : Inv ⟨env, made⟩) (set : env.last = some (utf8 secret)) :
    Inv ⟨env.keep secret, made⟩ where
  stored := inv.stored
  form := inv.form
  cached cached same := by
    cases same
    exact set
  boxed key boxed := by
    obtain ⟨cached, cache, encoded⟩ := inv.boxed key boxed
    have agree := (inv.cached cached cache).symm.trans set
    rw [encoded] at agree
    exact ⟨secret, rfl, (Option.some.inj agree).symm⟩
  made := inv.made

theorem Inv.keepBox (inv : Inv ⟨env, made⟩) (cached : env.secret = some secret) :
    Inv ⟨env.keepBox (utf8 secret), made⟩ where
  stored := inv.stored
  form := inv.form
  cached := inv.cached
  boxed key boxed := by
    cases boxed
    exact ⟨secret, cached, rfl⟩
  made := inv.made

theorem Inv.put (inv : Inv ⟨env, made⟩) (length : form.length = 32) (readable : Readable form)
    (agree : ∀ cached, env.secret = some cached → utf8 cached = form) :
    Inv ⟨env.put form, made⟩ where
  stored := rfl
  form other set := by
    cases set
    exact ⟨length, readable⟩
  cached cached cache := by
    rw [agree cached cache]
    rfl
  boxed := inv.boxed
  made := inv.made

/-- Nothing is cached before a secret is set. -/
theorem Inv.secret_none (inv : Inv ⟨env, made⟩) (unset : env.redis = none) :
    env.secret = none := by
  cases cache : env.secret with
  | none => rfl
  | some cached =>
      have stored := inv.stored.trans (inv.cached cached cache)
      rw [unset] at stored
      cases stored

theorem Inv.box_none (inv : Inv ⟨env, made⟩) (empty : env.secret = none) : env.box = none := by
  cases boxed : env.box with
  | none => rfl
  | some key =>
      obtain ⟨secret, cache, encoded⟩ := inv.boxed key boxed
      rw [empty] at cache
      cases cache

/-- Reading a secret changes nothing when it fails, and caches what is set otherwise. -/
theorem secretGet_sound (inv : Inv ⟨env, made⟩) (sound : AskedReadable hash env typed) :
    (∃ problem, secretGet hash typed env = .error problem env) ∨
      ∃ secret after, secretGet hash typed env = .ok secret after ∧ Inv ⟨after, made⟩ ∧
        after.secret = some secret ∧ (utf8 secret).length = 32 ∧ after.box = env.box := by
  have read_set : ∀ {env : Env} {form : Bytes}, Inv ⟨env, made⟩ → env.last = some form →
      ∃ secret after, secretGet hash typed env = .ok secret after ∧ Inv ⟨after, made⟩ ∧
        after.secret = some secret ∧ (utf8 secret).length = 32 ∧ after.box = env.box := by
    intro env form inv set
    obtain ⟨secret, read, length, encoded⟩ := @secretGet_set hash env form typed made inv set
    have wide := (inv.form form set).1
    rw [← encoded] at set wide
    exact ⟨secret, env.keep secret, read, inv.keep set, rfl, wide, rfl⟩
  cases unset : env.redis with
  | some form =>
      exact .inr (read_set inv (inv.stored.symm.trans unset))
  | none =>
      have empty := inv.secret_none unset
      by_cases short : typed.length < 32
      case neg => exact .inl ⟨_, secretGet_refused empty unset short⟩
      case pos =>
        have agree : ∀ cached, env.secret = some cached →
            utf8 cached = secretFormat hash (utf8 typed) := by
          intro cached cache
          rw [empty] at cache
          cases cache
        have put := inv.put (length_secretFormat _) (sound unset short) agree
        rw [secretGet_asked empty unset short]
        exact .inr (read_set put rfl)

theorem box_sound (inv : Inv ⟨env, made⟩) (sound : AskedReadable hash env typed) :
    (∃ problem, box hash typed env = .error problem env) ∨
      ∃ key after, box hash typed env = .ok key after ∧ Inv ⟨after, made⟩ ∧
        after.last = some key := by
  cases boxed : env.box with
  | some key =>
      obtain ⟨secret, cache, encoded⟩ := inv.boxed key boxed
      have set := inv.cached secret cache
      rw [encoded] at set
      exact .inr ⟨key, env, box_cached boxed, inv, set⟩
  | none =>
      obtain ⟨problem, failed⟩ | ⟨secret, after, read, between, cached, length, -⟩ :=
        secretGet_sound inv sound
      · exact .inl ⟨problem, box_failed boxed failed⟩
      · exact .inr ⟨utf8 secret, _, box_read boxed read length, between.keepBox cached,
          between.cached secret cached⟩

/-- The box is made from the secret that was set. -/
theorem box_set (inv : Inv ⟨env, made⟩) (set : env.last = some form) :
    ∃ after, box hash typed env = .ok form after := by
  have sound : AskedReadable hash env typed := by
    intro unset
    have stored := inv.stored.trans set
    rw [unset] at stored
    cases stored
  cases boxed : env.box with
  | some key =>
      obtain ⟨secret, cache, encoded⟩ := inv.boxed key boxed
      have agree := (inv.cached secret cache).symm.trans set
      rw [encoded] at agree
      cases agree
      exact ⟨env, box_cached boxed⟩
  | none =>
      obtain ⟨secret, read, -, encoded⟩ := @secretGet_set hash env form typed made inv set
      have wide := (inv.form form set).1
      rw [← encoded] at wide ⊢
      exact ⟨_, box_read boxed read wide⟩

theorem decrypt_of_box {after : Env} {key : Bytes} {cipher : Cipher}
    (made : box hash typed env = .ok key after) :
    decrypt hash typed cipher env =
      if key = cipher.key then .ok cipher.data after
      else .error (.valueError "Decryption failed. Ciphertext failed verification") after := by
  rw [decrypt, seq_of_ok made]
  split
  case isTrue => rfl
  case isFalse => rfl

theorem encrypt_of_box {after : Env} {key : Bytes} {data : Secret}
    (made : box hash typed env = .ok key after) :
    encrypt hash typed data env = .ok ⟨key, data.encoded⟩ after := by
  rw [encrypt, seq_of_ok made]
  rfl

theorem coherent_of_inv (inv : Inv ⟨env, made⟩) : Coherent hash ⟨env, made⟩ where
  gets form typed set := by
    obtain ⟨secret, read, length, encoded⟩ := @secretGet_set hash env form typed made inv set
    exact ⟨secret, _, read, length, encoded⟩
  unchanged secret typed set := by
    apply secretSet_form
    · exact (inv.form _ set).1
    · exact inv.stored.trans set
    · exact set
  opens form typed set pair member closed := by
    obtain ⟨after, key⟩ := @box_set hash env form typed made inv set
    have same : form = pair.2.key := by
      rw [inv.made pair member] at closed
      exact (Option.some.inj closed).symm
    apply Exists.intro after
    rw [decrypt_of_box key, if_pos same]
  closed form typed set pair member closed := by
    obtain ⟨after, key⟩ := @box_set hash env form typed made inv set
    have differ : form ≠ pair.2.key := by
      intro same
      apply closed
      rw [inv.made pair member, same]
    rw [decrypt_of_box key, if_neg differ]
    exact ⟨_, _, rfl⟩

/-! ## One call -/

theorem inv_step {world : World} {action : Action} (inv : Inv world)
    (sound : Sound hash world action) : Inv (step hash world action) := by
  obtain ⟨env, made⟩ := world
  cases action with
  | secretSet given typed =>
      by_cases accepted : given.Accepted typed
      case pos =>
        obtain ⟨readable, agree⟩ := sound accepted
        have set := @secretSet_accepted hash env given typed accepted
        rw [step, final_of_ok set]
        exact inv.put (length_secretFormat _) readable agree
      case neg =>
        rw [step, final_of_error (secretSet_refused accepted)]
        exact inv
  | identitiesSecretSet => exact sound.elim
  | secretGet typed =>
      obtain ⟨problem, failed⟩ | ⟨secret, after, read, kept, -⟩ := secretGet_sound inv sound
      · rw [step, final_of_error failed]
        exact inv
      · rw [step, final_of_ok read]
        exact kept
  | encrypt typed data =>
      obtain ⟨problem, failed⟩ | ⟨key, after, boxed, kept, set⟩ := box_sound inv sound
      · have refused : encrypt hash typed data env = .error problem env := by
          rw [encrypt, seq_of_error failed]
        simp only [step, refused]
        exact inv
      · simp only [step, encrypt_of_box boxed]
        exact { kept with made := List.forall_mem_cons.mpr ⟨set, kept.made⟩ }
  | decrypt typed cipher =>
      obtain ⟨problem, failed⟩ | ⟨key, after, boxed, kept, set⟩ := box_sound inv sound
      · have refused : decrypt hash typed cipher env = .error problem env := by
          rw [decrypt, seq_of_error failed]
        rw [step, final_of_error refused]
        exact inv
      · have reached : final (decrypt hash typed cipher) env = after := by
          by_cases same : key = cipher.key
          case pos =>
            apply final_of_ok
            rw [decrypt_of_box boxed, if_pos same]
          case neg =>
            apply final_of_error
            rw [decrypt_of_box boxed, if_neg same]
        rw [step, reached]
        exact kept
  | restart =>
      exact {
        stored := inv.stored
        form := inv.form
        cached := fun _ impossible => nomatch impossible
        boxed := fun _ impossible => nomatch impossible
        made := inv.made }

/-- Where the secret can be read, it is 32 characters. -/
theorem Coherent.readable {world : World} (coherent : Coherent hash world)
    (set : world.env.last = some form) : Readable form := by
  obtain ⟨secret, after, read, length, encoded⟩ := coherent.gets form "" set
  apply Exists.intro secret
  constructor
  · rw [← encoded]
    exact utf8Decode_utf8 secret
  · exact length

/-- Once something is set, reading it sets nothing else. -/
def Remains (form : Bytes) (env : Env) : Prop :=
  env.redis = some form ∧ env.last = some form

theorem remains_secretGet : Keeps (Remains form) (secretGet hash typed) := by
  intro env remains
  cases cache : env.secret with
  | some cached =>
      rw [final_of_ok (secretGet_cached cache)]
      exact remains
  | none =>
      cases decoded : utf8Decode form with
      | none =>
          obtain ⟨problem, failed⟩ :=
            @secretGet_undecodable hash env form typed cache remains.1 decoded
          rw [final_of_error failed]
          exact remains
      | some secret =>
          have stored := @secretGet_stored hash env form secret typed cache remains.1 decoded
          by_cases length : secret.length = 32
          case pos =>
            rw [if_pos length] at stored
            rw [final_of_ok stored]
            exact remains
          case neg =>
            rw [if_neg length] at stored
            rw [final_of_error stored]
            exact remains

theorem remains_box : Keeps (Remains form) (box hash typed) := by
  unfold box
  refine Keeps.bind Keeps.get ?_
  intro env
  cases env.box with
  | some key => apply Keeps.pure
  | none =>
      apply Keeps.bind remains_secretGet
      intro secret
      split
      case isTrue =>
        refine Keeps.bind (Keeps.modify ?_) ?_
        · intro env remains
          exact remains
        · intro value
          apply Keeps.pure
      case isFalse => apply Keeps.throw

/-- What follows a computation sees no more than what it ended with. -/
theorem seq_congr {α β : Type} {first : EStateM Exn Env α} {next : α → EStateM Exn Env β}
    {left right : Env} (same : first left = first right) :
    (first >>= next) left = (first >>= next) right := by
  simp only [bind, EStateM.bind, same]

theorem box_asked (empty : env.secret = none) (unset : env.redis = none) (unboxed : env.box = none)
    (short : typed.length < 32) :
    box hash typed env = box hash typed (env.put (secretFormat hash (utf8 typed))) := by
  have asked := @secretGet_asked hash env typed empty unset short
  have put : (env.put (secretFormat hash (utf8 typed))).box = none := unboxed
  simp only [box, get_seq, unboxed, put]
  exact seq_congr asked

/-- The calls that read a secret. -/
inductive Reading : Action → String → Prop where
  | secretGet (typed : String) : Reading (.secretGet typed) typed
  | encrypt (typed : String) (data : Secret) : Reading (.encrypt typed data) typed
  | decrypt (typed : String) (cipher : Cipher) : Reading (.decrypt typed cipher) typed

theorem remains_encrypt (data : Secret) : Keeps (Remains form) (encrypt hash typed data) := by
  unfold encrypt
  apply Keeps.bind remains_box
  intro key
  apply Keeps.pure

theorem remains_decrypt (cipher : Cipher) : Keeps (Remains form) (decrypt hash typed cipher) := by
  unfold decrypt
  apply Keeps.bind remains_box
  intro key
  split
  case isTrue => apply Keeps.pure
  case isFalse => apply Keeps.throw

theorem env_step_encrypt (world : World) (typed : String) (data : Secret) :
    (step hash world (.encrypt typed data)).env = final (encrypt hash typed data) world.env := by
  rw [step, final]
  cases encrypt hash typed data world.env with
  | ok cipher after => rfl
  | error problem after => rfl

/-- A secret that is typed for the first time is set. -/
theorem last_step_asked {action : Action} (reading : Reading action typed)
    (inv : Inv ⟨env, made⟩) (unset : env.redis = none) (short : typed.length < 32) :
    (step hash ⟨env, made⟩ action).env.last = some (secretFormat hash (utf8 typed)) := by
  have empty := inv.secret_none unset
  have unboxed := inv.box_none empty
  have remains : Remains (secretFormat hash (utf8 typed))
      (env.put (secretFormat hash (utf8 typed))) := ⟨rfl, rfl⟩
  have boxed := @box_asked hash env typed empty unset unboxed short
  cases reading with
  | secretGet typed =>
      have kept := @remains_secretGet hash _ typed _ remains
      rw [final, ← secretGet_asked empty unset short, ← final] at kept
      exact kept.2
  | encrypt typed data =>
      have kept := @remains_encrypt hash _ typed data _ remains
      have same : encrypt hash typed data env = encrypt hash typed data _ := seq_congr boxed
      rw [final, ← same, ← final] at kept
      rw [env_step_encrypt]
      exact kept.2
  | decrypt typed cipher =>
      have kept := @remains_decrypt hash _ typed cipher _ remains
      have same : decrypt hash typed cipher env = decrypt hash typed cipher _ := seq_congr boxed
      rw [final, ← same, ← final] at kept
      exact kept.2

end

/-! ## Every sequence of calls -/

/-- A call that leaves the machine coherent is a sound one. -/
theorem sound_of_asClaimed {world : World} {action : Action} (inv : Inv world)
    (claimed : AsClaimed hash world action) : Sound hash world action := by
  obtain ⟨env, made⟩ := world
  obtain ⟨succeeds, coherent⟩ := claimed
  have asked : ∀ {typed : String}, Reading action typed → AskedReadable hash env typed := by
    intro typed reading unset short
    exact coherent.readable (last_step_asked reading inv unset short)
  cases action with
  | secretSet given typed =>
      intro accepted
      have set := @secretSet_accepted hash env given typed accepted
      rw [step, final_of_ok set] at coherent
      constructor
      · exact coherent.readable rfl
      · intro cached cache
        obtain ⟨secret, after, read, -, encoded⟩ := coherent.gets _ typed rfl
        have cacheRead := @secretGet_cached hash
          (env.put (secretFormat hash (given.taken typed))) cached typed cache
        rw [cacheRead] at read
        cases read
        exact encoded
  | identitiesSecretSet secret =>
      obtain ⟨value, after, done⟩ := succeeds secret rfl
      cases done
  | secretGet typed => exact asked (.secretGet typed)
  | encrypt typed data => exact asked (.encrypt typed data)
  | decrypt typed cipher => exact asked (.decrypt typed cipher)
  | restart => trivial

theorem asClaimed_iff_sound {world : World} {action : Action} (inv : Inv world) :
    AsClaimed hash world action ↔ Sound hash world action := by
  constructor
  · exact sound_of_asClaimed inv
  · intro sound
    constructor
    · intro secret same
      subst same
      exact sound.elim
    · exact coherent_of_inv (inv_step inv sound)

/-- 32 times one digit. -/
def repeated (digit : Char) : String :=
  String.ofList (List.replicate 32 digit)

/-- A digest that tells one character from more. -/
def lengthHash : Hash where
  md5 content := repeated (if content.length = 1 then 'a' else 'b')
  length content := by simp [repeated]
  ascii content := by
    intro char member
    rw [repeated, String.toList_ofList, List.mem_replicate] at member
    rw [member.2]
    split
    case isTrue => decide
    case isFalse => decide

end JumpscaleX.Secrets
