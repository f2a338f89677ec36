import JumpscaleX.ChatFactory

/-!
# Isolation of the chat sessions

A session by itself delivers its outputs one by one and ends with its end message.  What
the factory does to a session in any company is compared with that.
-/

namespace JumpscaleX.Chats

open Runs Stateful

variable {S F A D : Type} [DecidableEq S]

/-- A session that is the only one, with its call of `session_work_get` and what the
calls returned. -/
structure Chat (F D : Type) where
  session : Option (Session F D)
  request : Request
  replies : List (Reply D)

namespace Chat

def start : Chat F D := ⟨none, .idle, []⟩

/-- The next output that was not delivered yet is delivered.  With its end message the
session is over. -/
def deliver (chat : Chat F D) : Chat F D :=
  match chat.session with
  | none => chat
  | some session =>
      match session.queueOut with
      | [] => chat
      | output :: queueOut =>
          { session :=
              if output.IsEnd then none else some { session with queueOut := queueOut }
            request := .idle
            replies := chat.replies ++ [.output output] }

def step (behaviour : Behaviour F A D) (chat : Chat F D) : Action S F A → Chat F D
  | .session_new _ flow =>
      match chat.session with
      | none =>
          { chat with session := some { flow := flow, queueOut := [], lastOutput := none } }
      | some _ => chat
  | .session_work_get _ restore =>
      if chat.request = .idle then
        match chat.session with
        | none => { chat with replies := chat.replies ++ [.ended] }
        | some _ => { chat with request := .waiting restore }
      else chat
  | .spawn _ => chat
  | .fetch _ =>
      match chat.request with
      | .waiting _ => chat.deliver
      | _ => chat
  | .act _ action =>
      { chat with
        session := chat.session.map (fun session => session.act behaviour action) }

end Chat

/-- What concerns one session. -/
def Factory.view (factory : Factory S F D) (session : S) : Chat F D where
  session := factory.sessions session
  request := factory.requests session
  replies := factory.replies session

/-- The factory, and every session by itself, which takes the actions of its own. -/
structure World (S F D : Type) where
  factory : Factory S F D
  alone : S → Chat F D

namespace World

def start : World S F D where
  factory :=
    { sessions := fun _ => none
      requests := fun _ => .idle
      fetchGreenlet := none
      replies := fun _ => [] }
  alone _ := .start

def step (behaviour : Behaviour F A D) (world : World S F D) (action : Action S F A) :
    World S F D where
  factory := world.factory.step behaviour action
  alone := Function.update world.alone action.session
    ((world.alone action.session).step behaviour action)

/-- A session by itself knows nothing of the actions of the others. -/
theorem alone_run (behaviour : Behaviour F A D) (world : World S F D)
    (actions : List (Action S F A)) (session : S) :
    (run (World.step behaviour) world actions).alone session =
      run (Chat.step behaviour) (world.alone session)
        (actions.filter (fun action => action.session = session)) := by
  induction actions generalizing world with
  | nil => rfl
  | cons action actions induction =>
      rw [run_cons, induction]
      by_cases own : action.session = session
      · subst own
        simp [step]
      · simp [step, own, Function.update_of_ne (Ne.symm own)]

/-- To every session it is as if it were the only one: it has had the same replies, and
it is in the table as long as its end message was not delivered. -/
def AsClaimed (world : World S F D) : Prop :=
  ∀ session, world.factory.view session = world.alone session

/-- No call starts to wait while the call of another session waits; no call restores an
output; and no end message is fetched. -/
def Sound (world : World S F D) : Action S F A → Prop
  | .session_work_get session _ =>
      world.factory.requests session = .idle → world.factory.sessions session ≠ none →
        ∀ other, other ≠ session → world.factory.requests other = .idle
  | .fetch session =>
      ∀ restore chatflow, world.factory.requests session = .waiting restore →
        world.factory.sessions session = some chatflow →
        (restore = true → chatflow.lastOutput = none) ∧
          ∀ output ∈ chatflow.queueOut.head?, ¬ output.IsEnd
  | _ => True

/-- Besides, the call that waits, if any, is the one that the factory remembers. -/
structure Isolated (world : World S F D) : Prop where
  claimed : world.AsClaimed
  calm : ∀ session restore, world.factory.requests session ≠ .killing restore
  remembered : ∀ session restore, world.factory.requests session = .waiting restore →
    world.factory.fetchGreenlet = some session
  waits : ∀ session, world.factory.fetchGreenlet = some session →
    world.factory.requests session ≠ .idle

omit [DecidableEq S] in
theorem start_isolated : (start : World S F D).Isolated := by
  constructor
  · exact fun _ => rfl
  · intro session restore impossible
    cases impossible
  · intro session restore impossible
    cases impossible
  · intro session impossible
    cases impossible

variable {world : World S F D} {behaviour : Behaviour F A D} {action : Action S F A}

/-- A step is as claimed when the session that acts is as it is by itself, and the
others are as they were. -/
theorem AsClaimed.step (claimed : world.AsClaimed)
    (own : (world.factory.step behaviour action).view action.session =
      (world.factory.view action.session).step behaviour action)
    (others : ∀ session, session ≠ action.session →
      (world.factory.step behaviour action).view session = world.factory.view session) :
    (world.step behaviour action).AsClaimed := by
  intro session
  by_cases same : session = action.session
  · subst same
    simp only [World.step, Function.update_self, own, claimed action.session]
  · simp only [World.step, Function.update_of_ne same, others session same, claimed session]

/-- What it takes the session that acts. -/
theorem own_of_asClaimed (claimed : world.AsClaimed)
    (after : (world.step behaviour action).AsClaimed) :
    (world.factory.step behaviour action).view action.session =
      (world.factory.view action.session).step behaviour action := by
  have own := after action.session
  simp only [World.step, Function.update_self] at own
  rw [own, claimed action.session]

theorem other_of_asClaimed (claimed : world.AsClaimed)
    (after : (world.step behaviour action).AsClaimed) {session : S}
    (different : session ≠ action.session) :
    (world.factory.step behaviour action).view session = world.factory.view session := by
  have other := after session
  simp only [World.step, Function.update_of_ne different] at other
  rw [other, claimed session]

theorem Isolated.fetchGreenlet_eq_none (isolated : world.Isolated) {session : S}
    (idle : world.factory.requests session = .idle)
    (others : ∀ other, other ≠ session → world.factory.requests other = .idle) :
    world.factory.fetchGreenlet = none := by
  cases remembered : world.factory.fetchGreenlet with
  | none => rfl
  | some other =>
      have waits := isolated.waits other remembered
      by_cases same : other = session
      · subst same
        exact (waits idle).elim
      · exact (waits (others other same)).elim

/-- A step that does nothing, neither in company nor alone. -/
theorem Isolated.unchanged (isolated : world.Isolated)
    (same : world.factory.step behaviour action = world.factory)
    (alone : (world.factory.view action.session).step behaviour action =
      world.factory.view action.session) :
    (world.step behaviour action).Isolated := by
  constructor
  · apply isolated.claimed.step
    · rw [same, alone]
    · intro session _
      rw [same]
  · rw [World.step, same]
    exact isolated.calm
  · rw [World.step, same]
    exact isolated.remembered
  · rw [World.step, same]
    exact isolated.waits

/-- A call for a session that is not in the table. -/
theorem Isolated.work_get_unknown (isolated : world.Isolated) {session : S} {restore : Bool}
    (idle : world.factory.requests session = .idle)
    (unknown : world.factory.sessions session = none) :
    (world.step behaviour (.session_work_get session restore)).Isolated := by
  have answered : world.factory.step behaviour (.session_work_get session restore) =
      world.factory.answer session .ended := by
    simp [Factory.step, idle, Factory.session_work_get, unknown]
  have requests : (world.factory.answer session .ended).requests =
      world.factory.requests := by
    simp [Factory.answer, ← idle]
  constructor
  · apply isolated.claimed.step
    · rw [answered]
      simp [Factory.answer, Factory.view, Action.session, Chat.step, idle, unknown]
    · intro other different
      rw [answered]
      simp only [Action.session] at different
      simp [Factory.answer, Factory.view, different]
  · rw [World.step, answered, requests]
    exact isolated.calm
  · rw [World.step, answered, requests]
    exact isolated.remembered
  · rw [World.step, answered, requests]
    exact isolated.waits

/-- A call that nobody else's call waits beside. -/
theorem Isolated.work_get (isolated : world.Isolated) {session : S} {restore : Bool}
    {chatflow : Session F D} (idle : world.factory.requests session = .idle)
    (known : world.factory.sessions session = some chatflow)
    (others : ∀ other, other ≠ session → world.factory.requests other = .idle) :
    (world.step behaviour (.session_work_get session restore)).Isolated := by
  have spawned : world.factory.step behaviour (.session_work_get session restore) =
      world.factory.spawnFetch session restore := by
    simp [Factory.step, idle, Factory.session_work_get, known,
      isolated.fetchGreenlet_eq_none idle others]
  have requests : ∀ other, (world.factory.spawnFetch session restore).requests other =
      if other = session then .waiting restore else .idle := by
    intro other
    by_cases same : other = session
    · simp [Factory.spawnFetch, same]
    · simp [Factory.spawnFetch, same, others other same]
  constructor
  · apply isolated.claimed.step
    · rw [spawned]
      simp [Factory.spawnFetch, Factory.view, Action.session, Chat.step, idle, known]
    · intro other different
      rw [spawned]
      simp only [Action.session] at different
      simp [Factory.spawnFetch, Factory.view, different]
  · intro other restore'
    simp only [World.step, spawned, requests]
    split <;> simp
  · intro other restore'
    simp only [World.step, spawned, requests]
    split
    · rename_i same
      intro _
      rw [same]
      rfl
    · intro impossible
      cases impossible
  · intro other remembered
    simp only [World.step, spawned] at remembered ⊢
    have same : session = other := by simpa [Factory.spawnFetch] using remembered
    rw [requests, if_pos same.symm]
    simp

/-- The greenlet of a call returns the next output, which is not the end. -/
theorem Isolated.fetch (isolated : world.Isolated) {session : S}
    (sound : world.Sound (.fetch session : Action S F A)) :
    (world.step behaviour (.fetch session)).Isolated := by
  cases waits : world.factory.requests session with
  | idle =>
      apply isolated.unchanged
      · simp [Factory.step, waits]
      · simp [Factory.view, Action.session, Chat.step, waits]
  | killing restore => exact (isolated.calm session restore waits).elim
  | waiting restore =>
      have alive : ∀ chatflow, world.factory.sessions session = some chatflow →
          (restore = true → chatflow.lastOutput = none) ∧
            ∀ output ∈ chatflow.queueOut.head?, ¬ output.IsEnd :=
        fun chatflow known => sound restore chatflow waits known
      cases known : world.factory.sessions session with
      | none =>
          apply isolated.unchanged
          · simp [Factory.step, waits, Factory.fetch, known]
          · simp [Factory.view, Action.session, Chat.step, waits, Chat.deliver, known]
      | some chatflow =>
          obtain ⟨fresh, goesOn⟩ := alive chatflow known
          have got := Session.get_work_of_fresh fresh
          cases queue : chatflow.queueOut with
          | nil =>
              rw [queue] at got
              apply isolated.unchanged
              · simp [Factory.step, waits, Factory.fetch, known, got]
              · simp [Factory.view, Action.session, Chat.step, waits, Chat.deliver, known, queue]
          | cons output queueOut =>
              rw [queue] at got
              have notEnd : ¬ output.IsEnd := goesOn output (by simp [queue])
              have remembered := isolated.remembered session restore waits
              have answered : world.factory.step behaviour (.fetch session) =
                  { world.factory.answer session (.output output) with
                    sessions := Function.update world.factory.sessions session
                      (some { chatflow with queueOut := queueOut })
                    fetchGreenlet := none } := by
                simp [Factory.step, waits, Factory.fetch, known, got, remembered]
              constructor
              · apply isolated.claimed.step
                · rw [answered]
                  simp [Factory.answer, Factory.view, Action.session, Chat.step, waits,
                    Chat.deliver, known, queue, notEnd]
                · intro other different
                  rw [answered]
                  simp only [Action.session] at different
                  simp [Factory.answer, Factory.view, different]
              · intro other restore' killing
                rw [World.step, answered] at killing
                by_cases same : other = session
                · simp [Factory.answer, same] at killing
                · simp only [Factory.answer, Function.update_of_ne same] at killing
                  exact isolated.calm other restore' killing
              · intro other restore' waits'
                rw [World.step, answered] at waits'
                by_cases same : other = session
                · simp [Factory.answer, same] at waits'
                · simp only [Factory.answer, Function.update_of_ne same] at waits'
                  have remembered' := isolated.remembered other restore' waits'
                  rw [remembered, Option.some.injEq] at remembered'
                  exact (same remembered'.symm).elim
              · intro other remembered'
                rw [World.step, answered] at remembered'
                cases remembered'

/-- A sound step keeps the sessions isolated. -/
theorem Isolated.step (isolated : world.Isolated) (sound : world.Sound action) :
    (world.step behaviour action).Isolated := by
  cases action with
  | session_new session flow =>
      constructor
      · apply isolated.claimed.step
        · simp only [Factory.step, Factory.view, Action.session, Chat.step]
          cases found : world.factory.sessions session <;> simp [found]
        · intro other different
          simp only [Action.session] at different
          simp only [Factory.step, Factory.view]
          cases world.factory.sessions session <;> simp [different]
      all_goals
        simp only [World.step, Factory.step]
        cases world.factory.sessions session
      · exact isolated.calm
      · exact isolated.calm
      · exact isolated.remembered
      · exact isolated.remembered
      · exact isolated.waits
      · exact isolated.waits
  | session_work_get session restore =>
      by_cases idle : world.factory.requests session = .idle
      · cases known : world.factory.sessions session with
        | none => exact isolated.work_get_unknown idle known
        | some chatflow => exact isolated.work_get idle known (sound idle (by simp [known]))
      · have same : world.factory.step behaviour (.session_work_get session restore) =
            world.factory := by
          simp [Factory.step, idle]
        apply isolated.unchanged same
        simp [Factory.view, Action.session, Chat.step, idle]
  | spawn session =>
      have same : world.factory.step behaviour (.spawn session) = world.factory := by
        cases waits : world.factory.requests session with
        | killing restore => exact (isolated.calm session restore waits).elim
        | idle => simp [Factory.step, waits]
        | waiting restore => simp [Factory.step, waits]
      apply isolated.unchanged same
      simp [Factory.view, Action.session, Chat.step]
  | fetch session => exact isolated.fetch sound
  | act session action =>
      constructor
      · apply isolated.claimed.step
        · simp [Factory.step, Factory.view, Action.session, Chat.step]
        · intro other different
          simp only [Action.session] at different
          simp [Factory.step, Factory.view, different]
      · exact isolated.calm
      · exact isolated.remembered
      · exact isolated.waits

/-! ## What goes wrong otherwise -/

/-- A call that begins while the call of another session waits: that one returns
nothing. -/
theorem Isolated.not_asClaimed_of_kill (isolated : world.Isolated) {session other : S}
    {restore : Bool} (idle : world.factory.requests session = .idle)
    (known : world.factory.sessions session ≠ none) (different : other ≠ session)
    (busy : world.factory.requests other ≠ .idle) :
    ¬ (world.step behaviour (.session_work_get session restore)).AsClaimed := by
  intro after
  obtain ⟨chatflow, known⟩ := Option.ne_none_iff_exists'.mp known
  have remembered : world.factory.fetchGreenlet = some other := by
    cases waits : world.factory.requests other with
    | idle => exact (busy waits).elim
    | killing restore' => exact (isolated.calm other restore' waits).elim
    | waiting restore' => exact isolated.remembered other restore' waits
  have unchanged := congrArg Chat.replies (other_of_asClaimed isolated.claimed after different)
  simp [Factory.view, Factory.step, idle, Factory.session_work_get, known, remembered,
    Factory.answer] at unchanged

/-- An output that is restored was not the next one, or stays in the queue. -/
theorem Isolated.not_asClaimed_of_restore (isolated : world.Isolated) {session : S}
    {chatflow : Session F D} {output : Output D}
    (waits : world.factory.requests session = .waiting true)
    (known : world.factory.sessions session = some chatflow)
    (last : chatflow.lastOutput = some output) :
    ¬ (world.step behaviour (.fetch session)).AsClaimed := by
  intro after
  have own := own_of_asClaimed isolated.claimed after
  have got : chatflow.get_work true = some (output, chatflow) := by
    simp only [Session.get_work, last]
  cases queue : chatflow.queueOut with
  | nil =>
      have replies := congrArg Chat.replies own
      simp [Factory.view, Factory.step, Action.session, Chat.step, waits, Factory.fetch,
        Factory.answer, known, got, Chat.deliver, queue] at replies
  | cons head queueOut =>
      have session := congrArg Chat.session own
      simp only [Factory.view, Factory.step, Action.session, Chat.step, waits, Factory.fetch,
        Factory.answer, known, got, Chat.deliver, queue, Option.bind_some,
        Output.saysEnd_eq_false, Bool.false_eq_true, if_false, Function.update_self] at session
      split at session
      · cases session
      · have shorter := congrArg (fun chatflow => chatflow.map Session.queueOut) session
        simp [queue] at shorter

/-- A session stays in the table after its end message. -/
theorem Isolated.not_asClaimed_of_end (isolated : world.Isolated) {session : S}
    {restore : Bool} {chatflow : Session F D} {output : Output D}
    (waits : world.factory.requests session = .waiting restore)
    (known : world.factory.sessions session = some chatflow)
    (fresh : restore = true → chatflow.lastOutput = none)
    (next : chatflow.queueOut.head? = some output) (ends : output.IsEnd) :
    ¬ (world.step behaviour (.fetch session)).AsClaimed := by
  intro after
  have own := own_of_asClaimed isolated.claimed after
  have got := Session.get_work_of_fresh fresh
  obtain ⟨queueOut, queue⟩ := List.head?_eq_some_iff.mp next
  rw [queue] at got
  have session := congrArg Chat.session own
  simp [Factory.view, Factory.step, Action.session, Chat.step, waits, Factory.fetch,
    Factory.answer, known, got, Chat.deliver, queue, ends] at session

theorem Isolated.sound (isolated : world.Isolated)
    (after : (world.step behaviour action).AsClaimed) : world.Sound action := by
  cases action with
  | session_new session flow => trivial
  | session_work_get session restore =>
      intro idle known other different
      by_contra busy
      exact isolated.not_asClaimed_of_kill idle known different busy after
  | spawn session => trivial
  | fetch session =>
      intro restore chatflow waits known
      have fresh : restore = true → chatflow.lastOutput = none := by
        rintro rfl
        by_contra present
        obtain ⟨output, last⟩ := Option.ne_none_iff_exists'.mp present
        exact isolated.not_asClaimed_of_restore waits known last after
      refine ⟨fresh, ?_⟩
      intro output next ends
      exact isolated.not_asClaimed_of_end waits known fresh next ends after
  | act session action => trivial

/-- In every run, with any sessions and any interleaving of their actions: every session
is at all times as if it were the only one exactly when all steps are sound. -/
theorem isolated_iff (behaviour : Behaviour F A D) (actions : List (Action S F A)) :
    Along (fun (world : World S F D) action => (world.step behaviour action).AsClaimed)
        (World.step behaviour) start actions ↔
      Along Sound (World.step behaviour) start actions := by
  apply along_iff Isolated
  · exact start_isolated
  · intro world action isolated
    exact ⟨isolated.sound, fun sound => (isolated.step sound).claimed⟩
  · intro world action isolated sound
    exact isolated.step sound

/-- While the first session waits for an output the second one begins to wait. -/
theorem second_session_kills :
    ¬ Along (fun (world : World Nat Unit Unit) action =>
        (world.step (⟨fun _ flow => (flow, [])⟩ : Behaviour Unit Unit Unit) action).AsClaimed)
      (World.step ⟨fun _ flow => (flow, [])⟩) start
      [.session_new 0 (), .session_new 1 (), .session_work_get 0 false,
        .session_work_get 1 false] := by
  intro claimed
  have replies := congrArg (fun chat => chat.replies.length) (claimed.2.2.2.1 0)
  exact absurd replies (by decide)

end World

end JumpscaleX.Chats
