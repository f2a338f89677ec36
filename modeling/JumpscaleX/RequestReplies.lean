import JumpscaleX.Library.Runs
import JumpscaleX.RedisServer
import JumpscaleX.ReplyFraming

/-!
# One reply for each request

A command that fails where the code has not looked for it raises out of the
loop without a reply, or writes an error and goes on to a second reply.  So a
connection keeps its replies in step exactly as long as its requests do not
fail there, and as long as what is written is framed.
-/

namespace JumpscaleX

open Stateful TextBytes Resp Gedis

namespace RedisServer

/-! ### Replies -/

/-- The reply says what was answered. -/
def Answer.Fits (reply : Reply) : Answer → Prop
  | .encode value => replyDatum reply = value.datum
  | .error _ => ∃ line, reply = .error line
  | .page res => replyDatum reply = (Value.list [.str "0", .list res]).datum

/-- What is written for the answer is framed. -/
def Answer.Framed : Answer → Prop
  | .encode value => value.Framed
  | .error msg => OneLine msg
  | .page res => (Value.list res).Framed

/-- The bytes that a request adds to the connection are one reply, and it
says what was answered. -/
def AnswersOnce {σ Model Obj : Type} (host : Host σ Model Obj) (conn : Connection σ)
    (request : List String) : Prop :=
  ∃ bytes, (step host conn request).response = ⟨conn.response.socket ++ bytes, []⟩ ∧
    ∃ reply, decode bytes = some reply ∧
      ∃ answer ∈ (handled host conn.db request).1.answers, answer.Fits reply

/-! ### What a command needs -/

section

variable {σ Model Obj : Type} (host : Host σ Model Obj) (db : σ)

/-- The key names a model, of which the client is found. -/
def Opens (key : String) (holds : Model → KeyId → σ → Prop) : Prop :=
  ∃ name url id model opened, parseKey key = .ok (name, url, id) ∧
    host.clientGet name url db = .ok model opened ∧ holds model id opened

/-- The object is made and saved, and has an id then. -/
def Settable (key val : String) : Prop :=
  Opens host db key fun model _ opened => ∃ obj made saved id,
    host.new model val opened = .ok obj made ∧ host.save obj made = .ok () saved ∧
      host.objId obj saved = some id ∧ id ≠ 0

/-- The object is found, and its json is framed; without a json the key stands
on one line. -/
def Gettable (key : String) : Prop :=
  Opens host db key fun model id opened => ∃ obj found,
    host.get model id opened = .ok obj found ∧
      ((∃ json shown, host.json obj found = .ok json shown ∧ (Value.str json).Framed) ∨
        (∃ problem shown, host.json obj found = .error problem shown) ∧ OneLine key)

/-- What deletes without an error. -/
def Deletes (model : Model) (opened : σ) : KeyId → Prop
  | .all => ∃ count counted destroyed, host.count model opened = .ok count counted ∧
      host.destroy model counted = .ok () destroyed
  | .num id => ∃ deleted, host.delete model id opened = .ok () deleted

/-- The deletion succeeds, or the key stands on one line. -/
def Deletable (key : String) : Prop :=
  Opens host db key fun model id opened => Deletes host model opened id ∨ OneLine key

/-- The model is found and counted. -/
def Countable (key : String) : Prop :=
  ∃ name middle url model opened count counted, PyText.split ':' key = [name, middle, url] ∧
    host.modelGet name url db = .ok model opened ∧ host.count model opened = .ok count counted

/-- The databases are listed, by framed names. -/
def Listable : Prop :=
  ∃ instances listed, host.instances db = .ok instances listed ∧
    (Value.list ((instances.flatMap scanNames).map .str)).Framed

/-- The model is found, and what is listed of it is framed. -/
def Scannable (key : String) : Prop :=
  ∃ name cat url model opened, splitKey key = .ok (name, cat, url) ∧ url ≠ "" ∧
    host.modelGet name url db = .ok model opened ∧
      if cat = "schemas" then
        (Value.list [.str (host.key model), .str (host.schemaText model)]).Framed
      else ∃ res listed, foundItems host model opened = .ok res listed ∧ (Value.list res).Framed

/-- The methods find what they need. -/
def MethodAnswers (cmd : String) (args : List String) : Prop :=
  if cmd = "set" then ∃ key val, args = [key, val] ∧ Settable host db key val
  else if cmd = "get" then ∃ key, args = [key] ∧ Gettable host db key
  else if cmd = "del" ∨ cmd = "delete" then ∃ key, args = [key] ∧ Deletable host db key
  else if cmd = "hset" ∨ cmd = "hsetnew" then
    ∃ key id val, args = [key, id, val] ∧ Settable host db (key ++ "/" ++ id) val
  else if cmd = "hget" then ∃ key id, args = [key, id] ∧ Gettable host db (key ++ "/" ++ id)
  else if cmd = "hdel" then ∃ key id, args = [key, id] ∧ Deletable host db (key ++ "/" ++ id)
  else if cmd = "hlen" then ∃ key, args = [key] ∧ Countable host db key
  else if cmd = "scan" then args ≠ [] ∧ Listable host db
  else if cmd = "ttl" ∨ cmd = "type" then args.length = 1
  else OneLine cmd

/-- The request finds what it needs. -/
def Answerable : List String → Prop
  | [] => False
  | cmd :: args =>
      let cmd := PyText.lower cmd
      if cmd = "command" ∨ cmd = "ping" then True
      else if cmd = "info" then (Value.str host.infoText).Framed
      else if cmd = "select" then args ≠ []
      else if cmd = "hscan" then
        ∃ key cursor options number, args = key :: cursor :: options ∧
          PyText.int cursor = .ok number ∧ requestNames options ⊆ ["count"] ∧
            Scannable host db key
      else MethodAnswers host db cmd args

end

/-! ### The bytes of the answers -/

/-- The bytes that are written for an answer. -/
def Answer.bytes : Answer → Bytes
  | .encode value => RedisResponseWriter.rendered value
  | .error msg => 45 :: utf8 ("ERR " ++ msg) ++ CRLF
  | .page res => RedisResponseWriter.rendered (.list [.str "0", .list res])

theorem write_bytes (answer : Answer) :
    RedisResponseWriter.Sends (fun writer => answer.write writer) answer.bytes := by
  cases answer with
  | encode value => exact RedisResponseWriter.sends_rendered value
  | error msg => exact sends_error msg
  | page res =>
      intro writer
      have sent := RedisResponseWriter.sends_rendered (.list [.str "0", .list res]) writer
      -- The last item has sent the buffer, so `encode` has nothing left to send.
      have flushed : ((writer.arrayHeader 2).encodeItems [.str "0", .list res]).send =
          (writer.arrayHeader 2).encodeItems [.str "0", .list res] := by
        have last : ((writer.arrayHeader 2).encode (.str "0")).encode (.list res) = _ :=
          RedisResponseWriter.sends_rendered (.list res) _
        change (((writer.arrayHeader 2).encode (.str "0")).encode (.list res)).send =
          ((writer.arrayHeader 2).encode (.str "0")).encode (.list res)
        rw [last]
        simp [RedisResponseWriter.send]
      have listed := RedisResponseWriter.encode_list writer [.str "0", .list res]
      exact flushed.symm.trans (listed.symm.trans sent)

theorem framed_page {res : List Value} :
    (Value.list [.str "0", .list res]).Framed ↔ (Value.list res).Framed := by
  constructor
  · intro framed
    cases framed with
    | list items => exact items _ (List.mem_cons_of_mem _ List.mem_cons_self)
  · intro framed
    refine .list ?_
    intro item member
    rcases List.mem_cons.mp member with first | rest
    · rw [first]
      exact .line (by simp [OneLine])
    · rw [List.mem_singleton.mp rest]
      exact framed

/-- Any number of answers are written one behind the other. -/
theorem writes_bytes (answers : List Answer) (sent : Bytes) :
    answers.foldl Answer.write ⟨sent, []⟩ = ⟨sent ++ answers.flatMap Answer.bytes, []⟩ := by
  induction answers generalizing sent with
  | nil => simp
  | cons answer answers induction =>
      have first : Answer.write ⟨sent, []⟩ answer = ⟨sent ++ ([] ++ answer.bytes), []⟩ :=
        write_bytes answer ⟨sent, []⟩
      rw [List.foldl_cons, first, induction]
      simp

/-- One answer is one reply that says it exactly when it is framed. -/
theorem decode_bytes_iff (answer : Answer) :
    (∃ reply, decode answer.bytes = some reply ∧ answer.Fits reply) ↔ answer.Framed := by
  rw [← writesReply_of_sends (write_bytes answer)]
  cases answer with
  | encode value => exact writesReply_encode_iff value
  | error msg => exact writesReply_error_iff msg
  | page res =>
      rw [Answer.Framed, ← framed_page, ← writesReply_encode_iff]
      rw [writesReply_of_sends (write_bytes (.page res)),
        writesReply_of_sends (RedisResponseWriter.sends_rendered _)]
      rfl

/-- An error with anything behind it is not one reply. -/
theorem decode_error_append {msg : String} {more : Bytes} (some : more ≠ []) :
    decode ((Answer.error msg).bytes ++ more) = none := by
  cases decoded : decode ((Answer.error msg).bytes ++ more) with
  | none => rfl
  | some reply =>
      exfalso
      obtain ⟨line, _, plain, same⟩ := of_read_error (decode_eq_some_iff.mp decoded)
      have spelled : utf8 ("ERR " ++ msg) ++ CRLF ++ more = line ++ CRLF := by
        rw [List.append_nil] at same
        exact same
      have lengths := congrArg List.length spelled
      have positive := List.length_pos_iff.mpr some
      simp only [List.length_append] at lengths
      -- The end of the error's own line stands in the line that was read.
      have inside : (line ++ CRLF)[(utf8 ("ERR " ++ msg)).length]? = Option.some 13 := by
        rw [← spelled, List.append_assoc, List.getElem?_append_right (Nat.le_refl _),
          Nat.sub_self]
        rfl
      rw [List.getElem?_append_left (by omega)] at inside
      exact (plain 13 (List.mem_of_getElem? inside)).1 rfl

/-- The answers are not one reply. -/
def Unanswered (answers : List Answer) : Prop :=
  ¬ ∃ reply, decode (answers.flatMap Answer.bytes) = some reply ∧
    ∃ answer ∈ answers, answer.Fits reply

theorem unanswered_nil : Unanswered [] := by
  rintro ⟨reply, decoded, _⟩
  cases decoded

theorem unanswered_single_iff {answer : Answer} : Unanswered [answer] ↔ ¬ answer.Framed := by
  rw [← decode_bytes_iff, Unanswered]
  simp

theorem rendered_ne_nil (value : Value) : RedisResponseWriter.rendered value ≠ [] := by
  cases value with
  | none => exact List.cons_ne_nil _ _
  | int value =>
      have sent : RedisResponseWriter.rendered (.int value) = _ :=
        RedisResponseWriter.rendered_of_sends (RedisResponseWriter.sends_integer value)
      rw [sent]
      exact List.cons_ne_nil _ _
  | bool value => cases value <;> exact List.cons_ne_nil _ _
  | str text =>
      by_cases feed : '\n' ∈ text.toList
      · rw [RedisResponseWriter.rendered_of_sends (RedisResponseWriter.sends_lines feed)]
        exact List.cons_ne_nil _ _
      · rw [RedisResponseWriter.rendered_of_sends (RedisResponseWriter.sends_line feed)]
        exact List.cons_ne_nil _ _
  | bytes data =>
      have sent : RedisResponseWriter.rendered (.bytes data) = _ :=
        RedisResponseWriter.rendered_of_sends (RedisResponseWriter.sends_bulkbytes data)
      rw [sent]
      exact List.cons_ne_nil _ _
  | list items =>
      rw [RedisResponseWriter.rendered_of_sends (RedisResponseWriter.sends_list
        fun item _ => RedisResponseWriter.sends_rendered item)]
      exact List.cons_ne_nil _ _
  | other repr =>
      have sent : RedisResponseWriter.rendered (.other repr) = _ :=
        RedisResponseWriter.rendered_of_sends (RedisResponseWriter.sends_bulk repr)
      rw [sent]
      exact List.cons_ne_nil _ _

theorem bytes_ne_nil (answer : Answer) : answer.bytes ≠ [] := by
  cases answer with
  | encode value => exact rendered_ne_nil value
  | error msg => exact List.cons_ne_nil _ _
  | page res => exact rendered_ne_nil _

/-- An error that is followed by a second answer is not one reply. -/
theorem unanswered_error (msg : String) (second : Answer) (rest : List Answer) :
    Unanswered (.error msg :: second :: rest) := by
  rintro ⟨reply, decoded, _⟩
  have more : (second :: rest).flatMap Answer.bytes ≠ [] := by
    rw [List.flatMap_cons]
    exact List.append_ne_nil_of_left_ne_nil (bytes_ne_nil second) _
  rw [List.flatMap_cons, decode_error_append more] at decoded
  cases decoded

/-! ### What a handler answers -/

section

variable {σ Model Obj α : Type}

/-- A handler answers with one framed reply when the condition holds, and its
answers are not one reply otherwise. -/
structure Decides (handler : HandlerM σ α) (db : σ) (holds : Prop) : Prop where
  answers : holds → ∃ value answer reached, handler ⟨db, []⟩ = .ok value ⟨reached, [answer]⟩ ∧
    answer.Framed
  fails : ¬ holds → Unanswered (final handler ⟨db, []⟩).answers

variable {db reached : σ} {answers : List Answer} {handler : HandlerM σ α} {holds : Prop}

theorem Decides.congr {other : Prop} (decides : Decides handler db holds) (same : holds ↔ other) :
    Decides handler db other := by
  rwa [← propext same]

/-- Without an answer nothing is decided. -/
theorem decides_false {end' : Handling σ} (ends : final handler ⟨db, []⟩ = end')
    (none : Unanswered end'.answers) (fails : ¬ holds) : Decides handler db holds :=
  ⟨fun impossible => absurd impossible fails, fun _ => ends ▸ none⟩

/-- A handler that ends with one answer. -/
theorem decides_single {value : α} {answer : Answer}
    (done : handler ⟨db, []⟩ = .ok value ⟨reached, [answer]⟩) :
    Decides handler db answer.Framed := by
  refine ⟨fun framed => ⟨value, answer, reached, done, framed⟩, ?_⟩
  intro unframed
  rw [final_of_ok done]
  exact unanswered_single_iff.mpr unframed

theorem onDb_of_ok {computation : EStateM Exn σ α} {value : α} (answers : List Answer)
    (done : computation db = .ok value reached) :
    onDb computation ⟨db, answers⟩ = .ok value ⟨reached, answers⟩ := by
  simp only [onDb, onPart, done]

theorem onDb_of_error {computation : EStateM Exn σ α} {problem : Exn} (answers : List Answer)
    (failed : computation db = .error problem reached) :
    onDb computation ⟨db, answers⟩ = .error problem ⟨reached, answers⟩ := by
  simp only [onDb, onPart, failed]

theorem respond_eq (answer : Answer) :
    respond answer ⟨db, answers⟩ = .ok () ⟨db, answers ++ [answer]⟩ := rfl

theorem tryExcept_of_ok {body : HandlerM σ α} (rescue : Exn → HandlerM σ Unit)
    {start behind : Handling σ} {value : α} (done : body start = .ok value behind) :
    tryExcept body rescue start = .ok (some value) behind := by
  rw [tryExcept, done]

theorem tryExcept_of_error {body : HandlerM σ α} (answer : Exn → Answer)
    {start : Handling σ} {problem : Exn} (failed : body start = .error problem ⟨db, answers⟩) :
    tryExcept body (fun problem => respond (answer problem)) start =
      .ok none ⟨db, answers ++ [answer problem]⟩ := by
  rw [tryExcept, failed]
  rfl

/-- A call on the database has to succeed, and what follows decides. -/
theorem decides_onDb {β : Type} {computation : EStateM Exn σ β} {next : β → HandlerM σ α}
    {inside : β → σ → Prop}
    (decides : ∀ value reached, Decides (next value) reached (inside value reached)) :
    Decides (onDb computation >>= next) db
      (∃ value reached, computation db = .ok value reached ∧ inside value reached) := by
  cases outcome : computation db with
  | error problem failed =>
      have raised : (onDb computation >>= next) ⟨db, []⟩ = .error problem ⟨failed, []⟩ :=
        seq_of_error (onDb_of_error [] outcome)
      refine decides_false (final_of_error raised) unanswered_nil ?_
      rintro ⟨value, reached, impossible, _⟩
      cases impossible
  | ok value reached =>
      have run : (onDb computation >>= next) ⟨db, []⟩ = next value ⟨reached, []⟩ :=
        seq_of_ok (onDb_of_ok [] outcome)
      have goes := decides value reached
      constructor
      · rintro ⟨value', reached', same, holds⟩
        cases same
        rw [run]
        exact goes.answers holds
      · intro fails
        rw [final, run]
        exact goes.fails fun holds => fails ⟨value, reached, rfl, holds⟩

/-- What is read of the arguments has to be readable. -/
theorem decides_attempt {β : Type} (outcome : Except Exn β) {next : β → HandlerM σ α}
    {inside : β → Prop} (decides : ∀ value, Decides (next value) db (inside value)) :
    Decides (attempt outcome >>= next) db (∃ value, outcome = .ok value ∧ inside value) := by
  cases outcome with
  | error problem =>
      refine decides_false rfl unanswered_nil ?_
      rintro ⟨value, impossible, _⟩
      cases impossible
  | ok value =>
      have goes : Decides (attempt (.ok value) >>= next) db (inside value) := decides value
      apply goes.congr
      constructor
      · intro holds
        exact ⟨value, rfl, holds⟩
      · rintro ⟨value', same, holds⟩
        cases same
        exact holds

theorem decides_respond (answer : Answer) : Decides (respond answer) db answer.Framed :=
  decides_single (respond_eq answer)

theorem decides_throw (problem : Exn) {holds : Prop} (fails : ¬ holds) :
    Decides (throw problem : HandlerM σ α) db holds :=
  decides_false rfl unanswered_nil fails

variable (host : Host σ Model Obj)

/-- The commands that work on a key need its client. -/
theorem decides_withClient {key : String} {body : Model → KeyId → HandlerM σ Unit}
    {holds : Model → KeyId → σ → Prop}
    (decides : ∀ model id opened, Decides (body model id) opened (holds model id opened)) :
    Decides (withClient host key body) db (Opens host db key holds) := by
  refine (decides_attempt (parseKey key) fun parts =>
    decides_onDb fun model opened => decides model parts.2.2 opened).congr ?_
  constructor
  · rintro ⟨⟨name, url, id⟩, parsed, model, opened, client, inside⟩
    exact ⟨name, url, id, model, opened, parsed, client, inside⟩
  · rintro ⟨name, url, id, model, opened, parsed, client, inside⟩
    exact ⟨(name, url, id), parsed, model, opened, client, inside⟩

/-- Saving succeeds with an id, or raises. -/
theorem saveStep_outcome (obj : Obj) (db : σ) (answers : List Answer) :
    (∃ saved id, host.save obj db = .ok () saved ∧ host.objId obj saved = some id ∧ id ≠ 0 ∧
      saveStep host (some obj) ⟨db, answers⟩ = .ok () ⟨saved, answers⟩) ∨
    (¬ ∃ saved id, host.save obj db = .ok () saved ∧ host.objId obj saved = some id ∧ id ≠ 0) ∧
      ∃ problem failed, saveStep host (some obj) ⟨db, answers⟩ =
        .error problem ⟨failed, answers⟩ := by
  have bind : saveStep host (some obj) ⟨db, answers⟩ = (onDb (host.save obj) >>= fun _ => do
      let handling ← getThe (Handling σ)
      attempt (Fallible.ensure (host.objId obj handling.db ≠ none ∧
        host.objId obj handling.db ≠ some 0) .assertionError)) ⟨db, answers⟩ := rfl
  cases saved : host.save obj db with
  | error problem failed =>
      refine .inr ⟨?_, problem, failed, bind.trans (seq_of_error (onDb_of_error _ saved))⟩
      rintro ⟨other, id, impossible, _⟩
      cases impossible
  | ok value reached =>
      have run : saveStep host (some obj) ⟨db, answers⟩ =
          attempt (Fallible.ensure (host.objId obj reached ≠ none ∧
            host.objId obj reached ≠ some 0) .assertionError) ⟨reached, answers⟩ :=
        bind.trans (seq_of_ok (onDb_of_ok _ saved))
      by_cases named : host.objId obj reached ≠ none ∧ host.objId obj reached ≠ some 0
      · obtain ⟨id, found⟩ := Option.ne_none_iff_exists'.mp named.1
        refine .inl ⟨reached, id, rfl, found, ?_, ?_⟩
        · intro zero
          exact named.2 (found.trans (congrArg some zero))
        · rw [run, Fallible.ensure_of named]
          rfl
      · refine .inr ⟨?_, .assertionError, reached, ?_⟩
        · rintro ⟨other, id, same, found, notZero⟩
          cases same
          apply named
          rw [found]
          exact ⟨Option.some_ne_none id, fun zero => notZero (Option.some.inj zero)⟩
        · rw [run, Fallible.ensure_of_not named]
          rfl

theorem decides_set (key val : String) :
    Decides (set host key val) db (Settable host db key val) := by
  let unsupported : Exn → Answer := fun _ =>
    .error ("cannot set, key:'" ++ key ++ "' not supported")
  let unsaved : Exn → Answer := fun _ =>
    .error ("cannot set, key:'" ++ key ++ "' could not save obj")
  refine decides_withClient host ?_
  intro model _ opened
  cases made : host.new model val opened with
  | error problem reached =>
      -- The name is unbound for the second `try` and for the last statement.
      have first := tryExcept_of_error unsupported
        (onDb_of_error [] made)
      refine decides_false (final_of_error (seq_of_ok first))
        (unanswered_error _ (unsaved problem) []) ?_
      rintro ⟨obj, other, saved, id, impossible, _⟩
      cases impossible
  | ok obj reached =>
      have makes : (∃ obj' other saved id,
          EStateM.Result.ok obj reached = (.ok obj' other : EStateM.Result Exn σ Obj) ∧
            host.save obj' other = .ok () saved ∧ host.objId obj' saved = some id ∧ id ≠ 0) ↔
          ∃ saved id, host.save obj reached = .ok () saved ∧ host.objId obj saved = some id ∧
            id ≠ 0 := by
        constructor
        · rintro ⟨obj', other, saved, id, same, found⟩
          cases same
          exact ⟨saved, id, found⟩
        · rintro ⟨saved, id, found⟩
          exact ⟨obj, reached, saved, id, rfl, found⟩
      refine Decides.congr ?_ makes.symm
      have first := tryExcept_of_ok (fun problem => respond (unsupported problem))
        (onDb_of_ok [] made)
      rcases saveStep_outcome host obj reached [] with
        ⟨saved, id, done, found, notZero, run⟩ | ⟨fails, problem, failed, run⟩
      · have second := tryExcept_of_ok (fun problem => respond (unsaved problem)) run
        refine (decides_single ((seq_of_ok first).trans (seq_of_ok second))).congr ?_
        constructor
        · intro _
          exact ⟨saved, id, done, found, notZero⟩
        · intro _
          rw [found]
          exact .int id
      · have second := tryExcept_of_error unsaved run
        exact decides_false (final_of_ok ((seq_of_ok first).trans (seq_of_ok second)))
          (unanswered_error _ _ []) fails

theorem showStep_some (obj : Obj) (handling : Handling σ) :
    showStep host (some obj) handling =
      (onDb (host.json obj) >>= fun json => respond (.encode (.str json))) handling := rfl

theorem decides_get (key : String) :
    Decides (get host key) db (Gettable host db key) := by
  let missing : Exn → Answer := fun problem =>
    .error ("cannot get, key:'" ++ key ++ "' not found," ++ host.excText problem)
  let unshown : Exn → Answer := fun _ =>
    .error ("cannot get, key:'" ++ key ++ "' could not decode json")
  have oneLine : OneLine ("cannot get, key:'" ++ key ++ "' could not decode json") ↔
      OneLine key := by
    simp [OneLine]
  refine decides_withClient host ?_
  intro model id opened
  cases found : host.get model id opened with
  | error problem reached =>
      have first := tryExcept_of_error missing (onDb_of_error [] found)
      have unbound : showStep host none ⟨reached, [missing problem]⟩ =
          .error (.unboundLocalError "obj") ⟨reached, [missing problem]⟩ := rfl
      have second := tryExcept_of_error unshown unbound
      refine decides_false (final_of_ok ((seq_of_ok first).trans (seq_of_ok second)))
        (unanswered_error _ _ []) ?_
      rintro ⟨obj, other, impossible, _⟩
      cases impossible
  | ok obj reached =>
      have first := tryExcept_of_ok (fun problem => respond (missing problem))
        (onDb_of_ok [] found)
      cases shown : host.json obj reached with
      | error problem failed =>
          have unshownStep : showStep host (some obj) ⟨reached, []⟩ =
              .error problem ⟨failed, []⟩ :=
            (showStep_some host obj _).trans (seq_of_error (onDb_of_error [] shown))
          have second := tryExcept_of_error unshown unshownStep
          refine (decides_single ((seq_of_ok first).trans (seq_of_ok second))).congr ?_
          refine oneLine.trans ?_
          constructor
          · intro line
            exact ⟨obj, reached, rfl, .inr ⟨⟨problem, failed, shown⟩, line⟩⟩
          · rintro ⟨obj', other, same, ⟨json, behind, impossible, _⟩ | ⟨_, line⟩⟩
            · cases same
              rw [shown] at impossible
              cases impossible
            · exact line
      | ok json behind =>
          have shownStep : showStep host (some obj) ⟨reached, []⟩ =
              .ok () ⟨behind, [.encode (.str json)]⟩ :=
            (showStep_some host obj _).trans (seq_of_ok (onDb_of_ok [] shown))
          have second := tryExcept_of_ok (fun problem => respond (unshown problem)) shownStep
          refine (decides_single ((seq_of_ok first).trans (seq_of_ok second))).congr ?_
          constructor
          · intro framed
            exact ⟨obj, reached, rfl, .inl ⟨json, behind, shown, framed⟩⟩
          · rintro ⟨obj', other, same, ⟨json', behind', shown', framed⟩ |
              ⟨⟨problem, failed, impossible⟩, _⟩⟩
            · cases same
              rw [shown] at shown'
              cases shown'
              exact framed
            · cases same
              rw [shown] at impossible
              cases impossible

/-- A deletion answers with a number, or raises before it answers. -/
theorem deleteStep_outcome (model : Model) (id : KeyId) (opened : σ) :
    (Deletes host model opened id ∧ ∃ number deleted,
      deleteStep host model id ⟨opened, []⟩ = .ok () ⟨deleted, [.encode (.int number)]⟩) ∨
    ¬ Deletes host model opened id ∧ ∃ problem failed,
      deleteStep host model id ⟨opened, []⟩ = .error problem ⟨failed, []⟩ := by
  cases id with
  | all =>
      cases counted : host.count model opened with
      | error problem failed =>
          refine .inr ⟨?_, problem, failed, seq_of_error (onDb_of_error [] counted)⟩
          rintro ⟨count, other, destroyed, impossible, _⟩
          rw [counted] at impossible
          cases impossible
      | ok count reached =>
          cases destroyed : host.destroy model reached with
          | error problem failed =>
              refine .inr ⟨?_, problem, failed, (seq_of_ok (onDb_of_ok [] counted)).trans
                (seq_of_error (onDb_of_error [] destroyed))⟩
              rintro ⟨count', other, behind, same, impossible⟩
              rw [counted] at same
              cases same
              rw [destroyed] at impossible
              cases impossible
          | ok value behind =>
              exact .inl ⟨⟨count, reached, behind, counted, destroyed⟩, count, behind,
                (seq_of_ok (onDb_of_ok [] counted)).trans (seq_of_ok (onDb_of_ok [] destroyed))⟩
  | num id =>
      cases deleted : host.delete model id opened with
      | error problem failed =>
          refine .inr ⟨?_, problem, failed, seq_of_error (onDb_of_error [] deleted)⟩
          rintro ⟨behind, impossible⟩
          rw [deleted] at impossible
          cases impossible
      | ok value behind =>
          exact .inl ⟨⟨behind, deleted⟩, 1, behind, seq_of_ok (onDb_of_ok [] deleted)⟩

theorem decides_delete (key : String) :
    Decides (delete host key) db (Deletable host db key) := by
  let undeleted : Exn → Answer := fun _ => .error ("cannot delete, key:'" ++ key ++ "'")
  have oneLine : OneLine ("cannot delete, key:'" ++ key ++ "'") ↔ OneLine key := by
    simp [OneLine]
  refine decides_withClient host ?_
  intro model id opened
  let tried : HandlerM σ Unit := do
    let _ ← tryExcept (deleteStep host model id) (fun problem => respond (undeleted problem))
    return ()
  change Decides tried opened _
  rcases deleteStep_outcome host model id opened with
    ⟨deletes, number, deleted, run⟩ | ⟨fails, problem, failed, run⟩
  · have done : tried ⟨opened, []⟩ = .ok () ⟨deleted, [.encode (.int number)]⟩ :=
      seq_of_ok (tryExcept_of_ok _ run)
    refine (decides_single done).congr ?_
    exact ⟨fun _ => .inl deletes, fun _ => .int number⟩
  · have done : tried ⟨opened, []⟩ = .ok () ⟨failed, [undeleted problem]⟩ :=
      seq_of_ok (tryExcept_of_error undeleted run)
    refine (decides_single done).congr (oneLine.trans ?_)
    exact ⟨.inr, fun holds => holds.resolve_left fails⟩

theorem decides_hlen (key : String) :
    Decides (hlen host key) db (Countable host db key) := by
  rcases parts : PyText.split ':' key with _ | ⟨name, _ | ⟨middle, _ | ⟨url, _ | ⟨more, rest⟩⟩⟩⟩
  case cons.cons.cons.nil =>
    have counts : hlen host key = onDb (host.modelGet name url) >>= fun model =>
        onDb (host.count model) >>= fun count => respond (.encode (.int count)) := by
      rw [hlen, parts]
    rw [counts]
    refine (decides_onDb fun model _ => decides_onDb fun (count : Nat) _ =>
      decides_respond (.encode (.int (count : Int)))).congr ?_
    constructor
    · rintro ⟨model, opened, found, count, counted, done, _⟩
      exact ⟨name, middle, url, model, opened, count, counted, parts, found, done⟩
    · rintro ⟨name', middle', url', model, opened, count, counted, split, found, done⟩
      rw [parts] at split
      cases split
      exact ⟨model, opened, found, count, counted, done, .int count⟩
  -- Any other number of parts does not unpack.
  all_goals
    have raises : hlen host key = throw (.valueError "wrong number of values to unpack") := by
      rw [hlen, parts]
    rw [raises]
    apply decides_throw
    rintro ⟨name', middle', url', model, opened, count, counted, split, _⟩
    rw [parts] at split
    simp at split

theorem decides_scan : Decides (scan host) db (Listable host db) :=
  decides_onDb fun instances _ =>
    decides_respond (.page ((instances.flatMap scanNames).map .str))

theorem decides_hscan (key : String) :
    Decides (hscan host key) db (Scannable host db key) := by
  let listed (cat : String) (model : Model) : HandlerM σ Unit :=
    if cat = "schemas" then
      respond (.page [.str (host.key model), .str (host.schemaText model)])
    else onDb (foundItems host model) >>= fun res => respond (.page res)
  have lists (cat : String) (model : Model) (opened : σ) : Decides (listed cat model) opened
      (if cat = "schemas" then
        (Value.list [.str (host.key model), .str (host.schemaText model)]).Framed
      else ∃ res listed, foundItems host model opened = .ok res listed ∧
        (Value.list res).Framed) := by
    by_cases schemas : cat = "schemas"
    · simp only [listed, if_pos schemas]
      exact decides_respond (.page _)
    · simp only [listed, if_neg schemas]
      exact decides_onDb fun res _ => decides_respond (.page res)
  have scans (parts : String × String × String) :
      Decides (if parts.2.2 = "" then throw (.attributeError "find")
        else onDb (host.modelGet parts.1 parts.2.2) >>= listed parts.2.1) db
        (parts.2.2 ≠ "" ∧ ∃ model opened, host.modelGet parts.1 parts.2.2 db = .ok model opened ∧
          if parts.2.1 = "schemas" then
            (Value.list [.str (host.key model), .str (host.schemaText model)]).Framed
          else ∃ res listed, foundItems host model opened = .ok res listed ∧
            (Value.list res).Framed) := by
    by_cases none : parts.2.2 = ""
    · rw [if_pos none]
      exact decides_throw _ fun holds => holds.1 none
    · rw [if_neg none]
      exact (decides_onDb (lists parts.2.1)).congr (and_iff_right none).symm
  refine (decides_attempt (splitKey key) scans).congr ?_
  constructor
  · rintro ⟨⟨name, cat, url⟩, parsed, some, model, opened, found, framed⟩
    exact ⟨name, cat, url, model, opened, parsed, some, found, framed⟩
  · rintro ⟨name, cat, url, model, opened, parsed, some, found, framed⟩
    exact ⟨(name, cat, url), parsed, some, model, opened, found, framed⟩

/-- A command that answers keeps the connection. -/
theorem decides_stay {command : HandlerM σ Unit} (decides : Decides command db holds) :
    Decides (do command; return Flow.stay) db holds := by
  constructor
  · intro inside
    obtain ⟨value, answer, reached, run, framed⟩ := decides.answers inside
    exact ⟨.stay, answer, reached, seq_of_ok run, framed⟩
  · intro outside
    have none := decides.fails outside
    cases run : command ⟨db, []⟩ with
    | error problem failed =>
        rw [final_of_error run] at none
        rwa [final_of_error (seq_of_error run)]
    | ok value reached =>
        rw [final_of_ok run] at none
        have done : (do command; return Flow.stay) ⟨db, []⟩ = .ok Flow.stay reached :=
          seq_of_ok run
        rwa [final_of_ok done]

/-- Without the right number of arguments a command raises. -/
theorem decides_wrong (fails : ¬ holds) :
    Decides (throw (.typeError "wrong number of arguments") : HandlerM σ Flow) db holds :=
  decides_throw _ fails

theorem decides_one {command : String → HandlerM σ Unit} {inside : String → Prop}
    (decides : ∀ key, Decides (command key) db (inside key)) (args : List String) :
    Decides (match args with
      | [key] => do command key; return Flow.stay
      | _ => throw (.typeError "wrong number of arguments")) db
      (∃ key, args = [key] ∧ inside key) := by
  rcases args with _ | ⟨key, _ | ⟨second, rest⟩⟩
  · exact decides_wrong (by simp)
  · exact (decides_stay (decides key)).congr (by simp)
  · exact decides_wrong (by simp)

theorem decides_two {command : String → String → HandlerM σ Unit} {inside : String → String → Prop}
    (decides : ∀ key val, Decides (command key val) db (inside key val)) (args : List String) :
    Decides (match args with
      | [key, val] => do command key val; return Flow.stay
      | _ => throw (.typeError "wrong number of arguments")) db
      (∃ key val, args = [key, val] ∧ inside key val) := by
  rcases args with _ | ⟨key, _ | ⟨val, _ | ⟨third, rest⟩⟩⟩
  · exact decides_wrong (by simp)
  · exact decides_wrong (by simp)
  · exact (decides_stay (decides key val)).congr (by simp)
  · exact decides_wrong (by simp)

theorem decides_three {command : String → String → String → HandlerM σ Unit}
    {inside : String → String → String → Prop}
    (decides : ∀ key id val, Decides (command key id val) db (inside key id val))
    (args : List String) :
    Decides (match args with
      | [key, id, val] => do command key id val; return Flow.stay
      | _ => throw (.typeError "wrong number of arguments")) db
      (∃ key id val, args = [key, id, val] ∧ inside key id val) := by
  rcases args with _ | ⟨key, _ | ⟨id, _ | ⟨val, _ | ⟨fourth, rest⟩⟩⟩⟩
  · exact decides_wrong (by simp)
  · exact decides_wrong (by simp)
  · exact decides_wrong (by simp)
  · exact (decides_stay (decides key id val)).congr (by simp)
  · exact decides_wrong (by simp)

/-- `ttl` and `type` answer with a fixed line. -/
theorem decides_line (line : String) (framed : OneLine line) (args : List String) :
    Decides (match args with
      | [_] => do respond (.encode (.str line)); return Flow.stay
      | _ => throw (.typeError "wrong number of arguments")) db (args.length = 1) := by
  refine (decides_one (fun _ => decides_respond (.encode (.str line))) args).congr ?_
  rw [List.length_eq_one_iff]
  exact exists_congr fun key => and_iff_left (.line framed)

theorem decides_method (cmd : String) (args : List String) :
    Decides (method host cmd args) db (MethodAnswers host db cmd args) := by
  simp only [method, MethodAnswers]
  by_cases isSet : cmd = "set"
  · simp only [if_pos isSet]
    exact decides_two (decides_set host) args
  by_cases isGet : cmd = "get"
  · simp only [if_neg isSet, if_pos isGet]
    exact decides_one (decides_get host) args
  by_cases isDel : cmd = "del" ∨ cmd = "delete"
  · simp only [if_neg isSet, if_neg isGet, if_pos isDel]
    exact decides_one (decides_delete host) args
  by_cases isHset : cmd = "hset" ∨ cmd = "hsetnew"
  · simp only [if_neg isSet, if_neg isGet, if_neg isDel, if_pos isHset]
    exact decides_three (fun key id val => decides_set host (key ++ "/" ++ id) val) args
  by_cases isHget : cmd = "hget"
  · simp only [if_neg isSet, if_neg isGet, if_neg isDel, if_neg isHset, if_pos isHget]
    exact decides_two (fun key id => decides_get host (key ++ "/" ++ id)) args
  by_cases isHdel : cmd = "hdel"
  · simp only [if_neg isSet, if_neg isGet, if_neg isDel, if_neg isHset, if_neg isHget,
      if_pos isHdel]
    exact decides_two (fun key id => decides_delete host (key ++ "/" ++ id)) args
  simp only [if_neg isSet, if_neg isGet, if_neg isDel, if_neg isHset, if_neg isHget, if_neg isHdel]
  by_cases isHlen : cmd = "hlen"
  · simp only [if_pos isHlen]
    exact decides_one (decides_hlen host) args
  by_cases isScan : cmd = "scan"
  · simp only [if_neg isHlen, if_pos isScan]
    cases args with
    | nil => exact decides_wrong (by simp)
    | cons cursor options => exact (decides_stay (decides_scan host)).congr (by simp)
  by_cases isTtl : cmd = "ttl"
  · simp only [if_neg isHlen, if_neg isScan, if_pos isTtl, if_pos (Or.inl isTtl)]
    exact decides_line "-1" (by simp [OneLine]) args
  by_cases isType : cmd = "type"
  · simp only [if_neg isHlen, if_neg isScan, if_neg isTtl, if_pos isType, if_pos (Or.inr isType)]
    exact decides_line "hash" (by simp [OneLine]) args
  · have neither : ¬ (cmd = "ttl" ∨ cmd = "type") := fun either => either.elim isTtl isType
    simp only [if_neg isHlen, if_neg isScan, if_neg isTtl, if_neg isType, if_neg neither]
    have run : (do respond (.error ("COULD NOT FIND COMMAND:" ++ cmd)); return Flow.leave :
        HandlerM σ Flow) ⟨db, []⟩ = .ok .leave
          ⟨db, [.error ("COULD NOT FIND COMMAND:" ++ cmd)]⟩ := rfl
    refine (decides_single run).congr ?_
    simp [Answer.Framed, OneLine]

theorem decides_handleRequest (db : σ) (request : List String) :
    Decides (handleRequest host request) db (Answerable host db request) := by
  cases request with
  | nil => exact decides_false rfl unanswered_nil id
  | cons cmd args =>
      simp only [handleRequest, Answerable]
      generalize PyText.lower cmd = cmd
      have line (text : String) (framed : OneLine text) :
          Decides (do respond (.encode (.str text)); return Flow.stay : HandlerM σ Flow) db True :=
        (decides_stay (decides_respond (.encode (.str text)))).congr
          (iff_true_intro (.line framed))
      by_cases isCommand : cmd = "command"
      · simp only [if_pos isCommand, if_pos (Or.inl isCommand)]
        exact line "OK" (by simp [OneLine])
      by_cases isPing : cmd = "ping"
      · simp only [if_neg isCommand, if_pos isPing, if_pos (Or.inr isPing)]
        exact line "PONG" (by simp [OneLine])
      have neither : ¬ (cmd = "command" ∨ cmd = "ping") := fun either =>
        either.elim isCommand isPing
      simp only [if_neg isCommand, if_neg isPing, if_neg neither]
      by_cases isInfo : cmd = "info"
      · simp only [if_pos isInfo]
        exact decides_stay (decides_respond _)
      by_cases isSelect : cmd = "select"
      · simp only [if_neg isInfo, if_pos isSelect]
        cases args with
        | nil => exact decides_throw _ (by simp)
        | cons index rest =>
            refine (decides_stay (decides_respond _)).congr ?_
            have framed : (if index = "0" then Answer.encode (.str "OK")
                else .error "DB index is out of range").Framed := by
              split
              · exact Value.Framed.line (by simp [OneLine])
              · simp [Answer.Framed, OneLine]
            simp [framed]
      by_cases isHscan : cmd = "hscan"
      · simp only [if_neg isInfo, if_neg isSelect, if_pos isHscan]
        rcases args with _ | ⟨key, _ | ⟨cursor, options⟩⟩
        · exact decides_throw _ (by simp)
        · exact decides_throw _ (by simp)
        have scans (number : Int) : Decides (if requestNames options ⊆ ["count"] then do
              hscan host key
              return Flow.stay
            else throw (.typeError "unexpected keyword argument") : HandlerM σ Flow) db
            (requestNames options ⊆ ["count"] ∧ Scannable host db key) := by
          by_cases known : requestNames options ⊆ ["count"]
          · rw [if_pos known]
            exact (decides_stay (decides_hscan host key)).congr (and_iff_right known).symm
          · rw [if_neg known]
            exact decides_throw _ fun holds => known holds.1
        refine (decides_attempt (PyText.int cursor) scans).congr ?_
        constructor
        · rintro ⟨number, parsed, known, scannable⟩
          exact ⟨key, cursor, options, number, rfl, parsed, known, scannable⟩
        · rintro ⟨key', cursor', options', number, same, parsed, known, scannable⟩
          cases same
          exact ⟨number, parsed, known, scannable⟩
      · simp only [if_neg isInfo, if_neg isSelect, if_neg isHscan]
        exact decides_method host cmd args

end

/-! ### A connection -/

section

variable {σ Model Obj : Type} (host : Host σ Model Obj)

/-- The database and the answers behind a request are those of its handler. -/
theorem handled_answers (db : σ) (request : List String) :
    (handled host db request).1 = final (handleRequest host request) ⟨db, []⟩ := by
  unfold handled
  cases run : handleRequest host request ⟨db, []⟩ with
  | error problem failed => exact (final_of_error run).symm
  | ok flow reached =>
      rw [final_of_ok run]
      cases flow <;> rfl

/-- What a request adds to a connection that reads. -/
theorem step_response (db : σ) (sent : Bytes) (request : List String) :
    (step host ⟨db, ⟨sent, []⟩, true⟩ request).response =
      ⟨sent ++ (handled host db request).1.answers.flatMap Answer.bytes, []⟩ := by
  rw [step, if_pos rfl]
  exact writes_bytes _ sent

theorem answersOnce_reading_iff (db : σ) (sent : Bytes) (request : List String) :
    AnswersOnce host ⟨db, ⟨sent, []⟩, true⟩ request ↔ Answerable host db request := by
  have decides := decides_handleRequest host db request
  constructor
  · rintro ⟨bytes, response, reply, decoded, answer, member, fits⟩
    by_contra outside
    have none := decides.fails outside
    rw [← handled_answers] at none
    apply none
    have same : bytes = (handled host db request).1.answers.flatMap Answer.bytes := by
      rw [step_response] at response
      injection response with socket
      exact (List.append_cancel_left socket).symm
    rw [← same]
    exact ⟨reply, decoded, answer, member, fits⟩
  · intro inside
    obtain ⟨flow, answer, reached, run, framed⟩ := decides.answers inside
    have answers : (handled host db request).1.answers = [answer] := by
      rw [handled_answers, final_of_ok run]
    obtain ⟨reply, decoded, fits⟩ := (decode_bytes_iff answer).mpr framed
    refine ⟨answer.bytes, ?_, reply, decoded, answer, ?_, fits⟩
    · rw [step_response, answers]
      simp
    · rw [answers]
      exact List.mem_singleton_self answer

/-- A connection that has been left writes nothing. -/
theorem not_answersOnce_left (db : σ) (sent : Bytes) (request : List String) :
    ¬ AnswersOnce host ⟨db, ⟨sent, []⟩, false⟩ request := by
  rintro ⟨bytes, response, reply, decoded, _⟩
  have same : (⟨sent, []⟩ : RedisResponseWriter) = ⟨sent ++ bytes, []⟩ := response
  injection same with socket
  rw [List.self_eq_append_right.mp socket] at decoded
  cases decoded

theorem answersOnce_iff (conn : Connection σ) (request : List String)
    (flushed : conn.response.buffer = []) :
    AnswersOnce host conn request ↔ conn.reading ∧ Answerable host conn.db request := by
  obtain ⟨db, ⟨sent, buffer⟩, reading⟩ := conn
  cases flushed
  cases reading with
  | false => simp [not_answersOnce_left]
  | true => simp [answersOnce_reading_iff]

/-- Every request leaves an empty buffer. -/
theorem step_flushed (conn : Connection σ) (request : List String)
    (flushed : conn.response.buffer = []) : (step host conn request).response.buffer = [] := by
  obtain ⟨db, ⟨sent, buffer⟩, reading⟩ := conn
  cases flushed
  cases reading with
  | false => rfl
  | true => rw [step_response]

theorem along_answersOnce_iff (requests : List (List String)) (conn : Connection σ)
    (flushed : conn.response.buffer = []) :
    Along (AnswersOnce host) (step host) conn requests ↔
      Along (fun conn request => conn.reading ∧ Answerable host conn.db request) (step host)
        conn requests := by
  induction requests generalizing conn with
  | nil => exact Iff.rfl
  | cons request requests induction =>
      simp only [Along, answersOnce_iff host conn request flushed,
        induction (step host conn request) (step_flushed host conn request flushed)]

end

/-! ### Two errors for one request -/

/-- One model that has no objects, and takes none. -/
def emptyHost : Host Unit Unit Unit where
  clientGet := fun _ _ => pure ()
  modelGet := fun _ _ => pure ()
  new := fun _ _ => throw (.valueError "could not load the json")
  save := fun _ => throw .assertionError
  objId := fun _ _ => none
  get := fun _ _ => throw (.notFound "could not find the object")
  json := fun _ => throw .assertionError
  count := fun _ => pure 0
  destroy := fun _ => throw (.attributeError "destroy")
  delete := fun _ _ => throw (.notFound "could not find the object")
  find := fun _ => pure []
  key := fun _ => "jumpscale.car.1"
  schemaText := fun _ => "@url = jumpscale.car.1"
  instances := pure [("main", ["jumpscale.car.1"])]
  excText := fun _ => "could not find the object"
  infoText := "# Server"

end RedisServer

end JumpscaleX
