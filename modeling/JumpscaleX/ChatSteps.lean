import JumpscaleX.ChatBot

/-!
# The steps of a chat flow, one at a time

As long as the user answers what was shown, goes back when nothing is under way in the
queues and does not go next while a step is executed, one greenlet executes the steps in
their order and gets its own answers.
-/

namespace JumpscaleX.Chats

open Runs Stateful

/-- The number of the output that a greenlet waits for an answer to. -/
def Greenlet.waitsFor {F A : Type} : Greenlet F A → Option Nat
  | .asking serial _ => some serial
  | .reporting serial _ => some serial
  | _ => none

namespace ChatBot

variable {F A D : Type} {flow : Chatflow F A D} {bot : ChatBot F A D}

def waitsFor (bot : ChatBot F A D) : Option Nat :=
  (bot.greenlets bot.greenlet).bind Greenlet.waitsFor

/-! ## What the parts of a step leave alone -/

section Parts

variable (info : StepInfo) (g : Nat) (greenlet : Option (Greenlet F A))

@[simp] theorem setGreenlet_currentStep :
    (bot.setGreenlet g greenlet).currentStep = bot.currentStep := rfl

@[simp] theorem setGreenlet_greenlet :
    (bot.setGreenlet g greenlet).greenlet = bot.greenlet := rfl

@[simp] theorem setGreenlet_greenlets :
    (bot.setGreenlet g greenlet).greenlets = Function.update bot.greenlets g greenlet := rfl

@[simp] theorem setGreenlet_lastOutput :
    (bot.setGreenlet g greenlet).lastOutput = bot.lastOutput := rfl

@[simp] theorem setGreenlet_queueOut :
    (bot.setGreenlet g greenlet).queueOut = bot.queueOut := rfl

@[simp] theorem setGreenlet_queueIn :
    (bot.setGreenlet g greenlet).queueIn = bot.queueIn := rfl

@[simp] theorem setGreenlet_sent : (bot.setGreenlet g greenlet).sent = bot.sent := rfl

@[simp] theorem setGreenlet_delivered :
    (bot.setGreenlet g greenlet).delivered = bot.delivered := rfl

@[simp] theorem setGreenlet_ends : (bot.setGreenlet g greenlet).ends = bot.ends := rfl

@[simp] theorem setGreenlet_failed : (bot.setGreenlet g greenlet).failed = bot.failed := rfl

/-- Everything but the infos of the steps is the same. -/
structure SameButInfo (bot reached : ChatBot F A D) : Prop where
  currentStep : reached.currentStep = bot.currentStep
  greenlets : reached.greenlets = bot.greenlets
  greenlet : reached.greenlet = bot.greenlet
  lastOutput : reached.lastOutput = bot.lastOutput
  queueOut : reached.queueOut = bot.queueOut
  queueIn : reached.queueIn = bot.queueIn
  sent : reached.sent = bot.sent
  delivered : reached.delivered = bot.delivered
  ends : reached.ends = bot.ends
  failed : reached.failed = bot.failed

theorem SameButInfo.refl (bot : ChatBot F A D) : SameButInfo bot bot :=
  ⟨rfl, rfl, rfl, rfl, rfl, rfl, rfl, rfl, rfl, rfl⟩

theorem setStepInfo_same : SameButInfo bot (bot.setStepInfo info) :=
  ⟨rfl, rfl, rfl, rfl, rfl, rfl, rfl, rfl, rfl, rfl⟩

theorem countSlide_same (isSlide retry : Bool) :
    SameButInfo bot (bot.countSlide isSlide retry) := by
  unfold countSlide
  split
  · exact setStepInfo_same _
  · exact .refl bot

theorem decorate_same (step : Step F) : SameButInfo bot (bot.decorate step) := by
  unfold decorate
  split
  · exact .refl bot
  · exact setStepInfo_same _

/-- What `send_data` changes: one more output is in the queue. -/
structure Sends (bot reached : ChatBot F A D) : Prop where
  currentStep : reached.currentStep = bot.currentStep
  greenlets : reached.greenlets = bot.greenlets
  greenlet : reached.greenlet = bot.greenlet
  queueOut : ∃ output, reached.queueOut = bot.queueOut ++ [(bot.sent, output)] ∧
    reached.lastOutput = some (bot.sent, output)
  queueIn : reached.queueIn = bot.queueIn
  sent : reached.sent = bot.sent + 1
  delivered : reached.delivered = bot.delivered
  ends : reached.ends = bot.ends
  failed : reached.failed = bot.failed

theorem sendData_sends (data : Payload D) (isSlide retry : Bool) :
    Sends bot (bot.sendData flow data isSlide retry) := by
  have same : SameButInfo bot (bot.countSlide isSlide retry) := countSlide_same isSlide retry
  constructor
  · exact same.currentStep
  · exact same.greenlets
  · exact same.greenlet
  · refine ⟨{ info := (bot.countSlide isSlide retry).info flow, payload := data }, ?_, ?_⟩
    · simp only [sendData, same.queueOut, same.sent]
    · simp only [sendData, same.sent]
  · exact same.queueIn
  · simp only [sendData, same.sent]
  · exact same.delivered
  · exact same.ends
  · exact same.failed

end Parts

/-! ## The claim -/

/-- What is to hold of a step.  After it at most one greenlet is alive, the index of the
step is valid, and there is at most one end message, after the last step and never
missing.  An answer that the step returns to the flow was given to the output of the
question, and an output that it delivers is the next one of the execution, or is shown
again. -/
structure AsClaimed (flow : Chatflow F A D) (bot : ChatBot F A D) (action : UserAction A) :
    Prop where
  alone : ∀ g g', (bot.step flow action).greenlets g ≠ none →
    (bot.step flow action).greenlets g' ≠ none → g = g'
  valid : (bot.step flow action).currentStep < flow.steps.length
  own : ∀ g serial next given answer queueIn, action = .run g →
    bot.greenlets g = some (.asking serial next) →
    bot.queueIn = (given, answer) :: queueIn → given = some serial
  inOrder : ∀ restore serial reached, action = .get_work restore →
    bot.get_work restore = some (serial, reached) →
    serial = bot.delivered ∨ restore = true ∧ bot.shown = some serial
  once : (bot.step flow action).ends ≤ 1
  last : (bot.step flow action).ends = 1 →
    (bot.step flow action).currentStep + 1 = flow.steps.length ∧
      ∀ g, (bot.step flow action).greenlets g = none
  finished : (∀ g, (bot.step flow action).greenlets g = none) →
    (bot.step flow action).ends = 1 ∨ (bot.step flow action).failed = true

/-- The output that is restored is the one that the user sees.  An answer is given to
the output that is waited for, as shown and once.  Nobody goes next beyond the steps or
while a greenlet is alive, or back while an output or an answer is under way or after
the end. -/
def Sound (flow : Chatflow F A D) (bot : ChatBot F A D) : UserAction A → Prop
  | .run _ => True
  | .get_work restore => restore = true → ∀ serial output,
      bot.lastOutput = some (serial, output) → bot.queueOut = [] ∧ bot.shown = some serial
  | .set_work _ => bot.queueIn = [] ∧ ∃ serial, bot.shown = some serial ∧
      bot.waitsFor = some serial
  | .go_next => (∀ g, bot.greenlets g = none) ∧ bot.currentStep + 1 < flow.steps.length
  | .go_back => bot.staysBack = true ∨ bot.queueOut = [] ∧ bot.queueIn = [] ∧ bot.ends = 0

/-! ## The invariant -/

/-- The outputs in the queue are those that were not delivered, in their order. -/
structure Queued (bot : ChatBot F A D) : Prop where
  pending : bot.queueOut.map Prod.fst = List.range' bot.delivered (bot.sent - bot.delivered)
  counted : bot.delivered ≤ bot.sent
  last : ∀ serial output, bot.lastOutput = some (serial, output) → serial + 1 = bot.sent

theorem Queued.congr {reached : ChatBot F A D} (queued : bot.Queued)
    (lastOutput : reached.lastOutput = bot.lastOutput)
    (queueOut : reached.queueOut = bot.queueOut) (sent : reached.sent = bot.sent)
    (delivered : reached.delivered = bot.delivered) : reached.Queued := by
  constructor
  · rw [queueOut, sent, delivered, queued.pending]
  · rw [sent, delivered]
    exact queued.counted
  · rw [lastOutput, sent]
    exact queued.last

theorem Queued.sends {reached : ChatBot F A D} (queued : bot.Queued)
    (sends : Sends bot reached) : reached.Queued := by
  obtain ⟨output, queueOut, lastOutput⟩ := sends.queueOut
  have counted := queued.counted
  constructor
  · have one : bot.sent + 1 - bot.delivered = bot.sent - bot.delivered + 1 := by omega
    have last : bot.delivered + (bot.sent - bot.delivered) = bot.sent := by omega
    rw [queueOut, sends.sent, sends.delivered, List.map_append, queued.pending, one,
      List.range'_1_concat, last]
    rfl
  · rw [sends.sent, sends.delivered]
    omega
  · intro serial output' same
    rw [lastOutput, Option.some.injEq, Prod.mk.injEq] at same
    rw [sends.sent, same.1]

/-- Everything was delivered or left behind. -/
theorem Queued.of_empty (queued : bot.Queued) (empty : bot.queueOut = []) :
    bot.delivered = bot.sent := by
  have pending := congrArg List.length queued.pending
  have counted := queued.counted
  simp only [empty, List.map_nil, List.length_nil, List.length_range'] at pending
  omega

/-- What sound steps keep. -/
structure Good (flow : Chatflow F A D) (bot : ChatBot F A D) : Prop where
  current : ∀ g, g ≠ bot.greenlet → bot.greenlets g = none
  valid : bot.currentStep < flow.steps.length
  queued : bot.Queued
  asks : ∀ serial, bot.waitsFor = some serial → serial + 1 = bot.sent
  answers : bot.queueIn = [] ∨
    ∃ serial answer, bot.queueIn = [(some serial, answer)] ∧ bot.waitsFor = some serial
  ended : bot.ends = 0 ∨ bot.ends = 1 ∧ bot.greenlets bot.greenlet = none ∧
    bot.currentStep + 1 = flow.steps.length
  gone : bot.greenlets bot.greenlet = none → bot.ends = 1 ∨ bot.failed = true

theorem start_good (flow : Chatflow F A D) : Good flow (start flow) := by
  constructor
  · intro g different
    simp only [start] at different ⊢
    rw [Function.update_of_ne different]
  · exact List.length_pos_iff.mpr flow.steps_ne
  · refine ⟨rfl, Nat.le_refl 0, ?_⟩
    intro serial output impossible
    cases impossible
  · intro serial waits
    cases first : flow.steps.head? <;> simp [waitsFor, start, first, Greenlet.waitsFor] at waits
  · exact .inl rfl
  · exact .inl rfl
  · intro dead
    simp [start, flow.steps_ne] at dead

theorem Good.alone (good : Good flow bot) (g g' : Nat) (alive : bot.greenlets g ≠ none)
    (alive' : bot.greenlets g' ≠ none) : g = g' := by
  have here : g = bot.greenlet := by
    by_contra different
    exact alive (good.current g different)
  have here' : g' = bot.greenlet := by
    by_contra different
    exact alive' (good.current g' different)
  rw [here, here']

/-- A greenlet that does not wait for an answer has none in the queue. -/
theorem Good.queueIn_eq_nil (good : Good flow bot) (busy : bot.waitsFor = none) :
    bot.queueIn = [] := by
  rcases good.answers with empty | ⟨serial, answer, _, waits⟩
  · exact empty
  · rw [busy] at waits
    cases waits

theorem Good.ends_eq_zero (good : Good flow bot)
    (alive : bot.greenlets bot.greenlet ≠ none) : bot.ends = 0 := by
  rcases good.ended with zero | ⟨_, dead, _⟩
  · exact zero
  · exact (alive dead).elim

/-- After a step that leaves its greenlet alive. -/
theorem Good.alive {reached : ChatBot F A D} (good : Good flow bot)
    (greenlet : Greenlet F A) (same : reached.greenlet = bot.greenlet)
    (greenlets : reached.greenlets =
      Function.update bot.greenlets bot.greenlet (some greenlet))
    (valid : reached.currentStep < flow.steps.length) (queued : reached.Queued)
    (asks : ∀ serial, greenlet.waitsFor = some serial → serial + 1 = reached.sent)
    (empty : reached.queueIn = []) (still : reached.ends = 0) : Good flow reached := by
  have here : reached.greenlets reached.greenlet = some greenlet := by
    rw [same, greenlets, Function.update_self]
  constructor
  · intro g different
    rw [same] at different
    rw [greenlets, Function.update_of_ne different]
    exact good.current g different
  · exact valid
  · exact queued
  · intro serial waits
    apply asks
    simpa [waitsFor, here] using waits
  · exact .inl empty
  · exact .inl still
  · intro dead
    rw [here] at dead
    cases dead

/-! ## A greenlet goes on -/

/-- A message was sent, and the greenlet is in another place of its step. -/
theorem Good.sends {greenlet : Greenlet F A} (good : Good flow bot)
    (alive : bot.greenlets bot.greenlet ≠ none) (busy : bot.waitsFor = none)
    (data : Payload D) (isSlide retry : Bool)
    (asks : ∀ serial, greenlet.waitsFor = some serial → serial = bot.sent) :
    Good flow ((bot.sendData flow data isSlide retry).setGreenlet bot.greenlet
      (some greenlet)) := by
  have sends : Sends bot (bot.sendData flow data isSlide retry) := sendData_sends ..
  apply good.alive greenlet
  · exact sends.greenlet
  · simp only [setGreenlet_greenlets, sends.greenlets]
  · simp only [setGreenlet_currentStep, sends.currentStep]
    exact good.valid
  · exact (good.queued.sends sends).congr rfl rfl rfl rfl
  · intro serial waits
    rw [asks serial waits, setGreenlet_sent, sends.sent]
  · simp only [setGreenlet_queueIn, sends.queueIn]
    exact good.queueIn_eq_nil busy
  · simp only [setGreenlet_ends, sends.ends]
    exact good.ends_eq_zero alive

/-- The end of a step: the end message goes out and the greenlet ends, or the next step
begins. -/
theorem Good.afterStep (good : Good flow bot)
    (alive : bot.greenlets bot.greenlet ≠ none) :
    Good flow ({ bot with queueIn := [] }.afterStep flow bot.greenlet) := by
  have zero := good.ends_eq_zero alive
  unfold ChatBot.afterStep
  by_cases isLast : isLastStep flow { bot with queueIn := [] } = true
  · rw [if_pos isLast]
    have sends : Sends { bot with queueIn := [] }
        (sendData flow { bot with queueIn := [] } { category := "end", data := flow.endData }
          false false) := sendData_sends ..
    have atEnd : bot.currentStep + 1 = flow.steps.length := by
      have valid := good.valid
      simp only [isLastStep, decide_eq_true_eq] at isLast
      omega
    constructor
    · intro g different
      simp only [setGreenlet_greenlet, sends.greenlet] at different
      simp only [setGreenlet_greenlets, sends.greenlets, Function.update_of_ne different]
      exact good.current g different
    · simp only [setGreenlet_currentStep, sends.currentStep]
      exact good.valid
    · have queued : Queued { bot with queueIn := [] } := good.queued.congr rfl rfl rfl rfl
      exact (queued.sends sends).congr rfl rfl rfl rfl
    · intro serial waits
      simp [waitsFor, sends.greenlet] at waits
    · left
      simp only [setGreenlet_queueIn, sends.queueIn]
    · right
      refine ⟨by simp only [zero], ?_, ?_⟩
      · simp only [setGreenlet_greenlet, setGreenlet_greenlets, sends.greenlet,
          Function.update_self]
      · simp only [setGreenlet_currentStep, sends.currentStep, atEnd]
    · intro _
      left
      simp only [zero]
  · rw [if_neg isLast]
    have next : bot.currentStep + 1 < flow.steps.length := by
      simp only [isLastStep, decide_eq_true_eq] at isLast
      omega
    unfold executeIn
    simp only [List.getElem?_eq_getElem next]
    apply good.alive (.starting _)
    · rfl
    · rfl
    · exact next
    · exact good.queued.congr rfl rfl rfl rfl
    · intro serial waits
      cases waits
    · rfl
    · exact zero

theorem Good.runCode (good : Good flow bot) {code : F}
    (running : bot.greenlets bot.greenlet = some (.running code)) :
    Good flow (bot.runCode flow bot.greenlet code) := by
  have alive : bot.greenlets bot.greenlet ≠ none := by simp [running]
  have busy : bot.waitsFor = none := by simp [waitsFor, running, Greenlet.waitsFor]
  have same : { bot with queueIn := [] } = bot := by
    rw [← good.queueIn_eq_nil busy]
  have after := good.afterStep alive
  rw [same] at after
  unfold ChatBot.runCode
  cases flow.next code with
  | send data isSlide retry next =>
      apply good.sends alive busy
      intro serial waits
      cases waits
  | ask data isSlide retry next =>
      apply good.sends alive busy
      intro serial waits
      cases waits
      rfl
  | stop msg =>
      cases msg with
      | none => exact after
      | some msg =>
          apply good.sends alive busy
          intro serial waits
          cases waits
          rfl
  | raise =>
      apply good.sends alive busy
      intro serial waits
      cases waits
      rfl
  | done => exact after

/-- The only answer in the queue is the one that the greenlet waits for. -/
theorem Good.answer (good : Good flow bot) {given : Option Nat} {answer : A}
    {queueIn : List (Option Nat × A)} (head : bot.queueIn = (given, answer) :: queueIn) :
    bot.waitsFor = given ∧ queueIn = [] := by
  rcases good.answers with empty | ⟨serial, answer', only, waits⟩
  · rw [head] at empty
    cases empty
  · rw [head] at only
    obtain ⟨first, rfl⟩ := List.cons.inj only
    rw [waits, (Prod.mk.inj first).1]
    exact ⟨rfl, rfl⟩

theorem Good.runGreenlet (good : Good flow bot) (g : Nat) :
    Good flow (bot.runGreenlet flow g) := by
  by_cases current : g = bot.greenlet
  · subst current
    unfold ChatBot.runGreenlet
    cases here : bot.greenlets bot.greenlet with
    | none => exact good
    | some greenlet =>
        have alive : bot.greenlets bot.greenlet ≠ none := by simp [here]
        have zero := good.ends_eq_zero alive
        cases greenlet with
        | starting step =>
            have same : SameButInfo bot (bot.decorate step) := decorate_same step
            have busy : bot.waitsFor = none := by simp [waitsFor, here, Greenlet.waitsFor]
            apply good.alive (.running step.code)
            · exact same.greenlet
            · simp only [setGreenlet_greenlets, same.greenlets]
            · simp only [setGreenlet_currentStep, same.currentStep]
              exact good.valid
            · exact good.queued.congr same.lastOutput same.queueOut same.sent same.delivered
            · intro serial waits
              cases waits
            · simp only [setGreenlet_queueIn, same.queueIn]
              exact good.queueIn_eq_nil busy
            · simp only [setGreenlet_ends, same.ends, zero]
        | running code => exact good.runCode here
        | asking serial next =>
            cases queue : bot.queueIn with
            | nil => exact good
            | cons first queueIn =>
                obtain ⟨given, answer⟩ := first
                obtain ⟨_, rfl⟩ := good.answer queue
                apply good.alive (.running (next answer))
                · rfl
                · rfl
                · exact good.valid
                · exact good.queued.congr rfl rfl rfl rfl
                · intro serial waits
                  cases waits
                · rfl
                · exact zero
        | reporting serial internal =>
            cases queue : bot.queueIn with
            | nil => exact good
            | cons first queueIn =>
                obtain ⟨given, answer⟩ := first
                obtain ⟨_, rfl⟩ := good.answer queue
                cases internal with
                | false => exact good.afterStep alive
                | true =>
                    simp only [if_true]
                    constructor
                    · intro g different
                      simp only [setGreenlet_greenlet] at different
                      simp only [setGreenlet_greenlets, Function.update_of_ne different]
                      exact good.current g different
                    · exact good.valid
                    · exact good.queued.congr rfl rfl rfl rfl
                    · intro serial waits
                      simp [waitsFor] at waits
                    · exact .inl rfl
                    · exact .inl zero
                    · intro _
                      exact .inr rfl
  · unfold ChatBot.runGreenlet
    rw [good.current g current]
    exact good

/-! ## The user acts -/

/-- What `get_work` returns: the last output again, or the next one of the queue. -/
theorem get_work_cases {restore : Bool} {serial : Nat} {reached : ChatBot F A D}
    (got : bot.get_work restore = some (serial, reached)) :
    (∃ output, restore = true ∧ bot.lastOutput = some (serial, output) ∧
      reached = { bot with delivered := serial + 1, shown := some serial }) ∨
    (∃ output queueOut, bot.queueOut = (serial, output) :: queueOut ∧
      reached = { bot with
        queueOut := queueOut, delivered := serial + 1, shown := some serial }) := by
  unfold get_work at got
  split at got
  · rename_i serial' output last
    cases got
    exact .inl ⟨output, rfl, last, rfl⟩
  · split at got
    · cases got
    · rename_i serial' output queueOut queue
      cases got
      exact .inr ⟨output, queueOut, queue, rfl⟩

/-- The first output of the queue is the next one. -/
theorem Queued.head {serial : Nat} {output : Output D} {queueOut : List (Nat × Output D)}
    (queued : bot.Queued) (head : bot.queueOut = (serial, output) :: queueOut) :
    serial = bot.delivered ∧ queueOut.map Prod.fst =
      List.range' (bot.delivered + 1) (bot.sent - (bot.delivered + 1)) ∧
      bot.delivered + 1 ≤ bot.sent := by
  have pending := queued.pending
  rw [head, List.map_cons] at pending
  cases left : bot.sent - bot.delivered with
  | zero =>
      rw [left] at pending
      cases pending
  | succ count =>
      rw [left, List.range'_succ] at pending
      obtain ⟨first, rest⟩ := List.cons.inj pending
      refine ⟨first, ?_, by omega⟩
      have same : bot.sent - (bot.delivered + 1) = count := by omega
      rw [same, rest]

/-- Looking at the outputs leaves the greenlets alone. -/
theorem Good.deliver {reached : ChatBot F A D} (good : Good flow bot)
    (queued : reached.Queued) (currentStep : reached.currentStep = bot.currentStep)
    (greenlets : reached.greenlets = bot.greenlets)
    (greenlet : reached.greenlet = bot.greenlet) (queueIn : reached.queueIn = bot.queueIn)
    (sent : reached.sent = bot.sent) (ends : reached.ends = bot.ends)
    (failed : reached.failed = bot.failed) : Good flow reached := by
  have waits : reached.waitsFor = bot.waitsFor := by
    simp only [waitsFor, greenlets, greenlet]
  constructor
  · rw [greenlets, greenlet]
    exact good.current
  · rw [currentStep]
    exact good.valid
  · exact queued
  · rw [waits, sent]
    exact good.asks
  · rw [waits, queueIn]
    exact good.answers
  · rw [ends, greenlets, greenlet, currentStep]
    exact good.ended
  · rw [ends, greenlets, greenlet, failed]
    exact good.gone

theorem Good.get_work (good : Good flow bot) {restore : Bool} {serial : Nat}
    {reached : ChatBot F A D} (sound : Sound flow bot (.get_work restore))
    (got : bot.get_work restore = some (serial, reached)) :
    Good flow reached ∧ (serial = bot.delivered ∨ restore = true ∧ bot.shown = some serial) := by
  have queued := good.queued
  rcases get_work_cases got with ⟨output, isRestore, last, rfl⟩ | ⟨output, queueOut, queue, rfl⟩
  · obtain ⟨empty, shown⟩ := sound isRestore serial output last
    have atEnd := queued.last serial output last
    refine ⟨?_, .inr ⟨isRestore, shown⟩⟩
    apply good.deliver
    · constructor
      · simp [empty, atEnd]
      · exact Nat.le_of_eq atEnd
      · exact queued.last
    all_goals rfl
  · obtain ⟨first, rest, counted⟩ := queued.head queue
    refine ⟨?_, .inl first⟩
    apply good.deliver
    · constructor
      · simp only [first, rest]
      · simp only [first]
        exact counted
      · exact queued.last
    all_goals rfl

/-- An answer to what is waited for, and as it was shown. -/
theorem Good.set_work (good : Good flow bot) {answer : A}
    (sound : Sound flow bot (.set_work answer)) : Good flow (bot.set_work answer) := by
  obtain ⟨empty, serial, shown, waits⟩ := sound
  constructor
  · exact good.current
  · exact good.valid
  · exact good.queued.congr rfl rfl rfl rfl
  · exact good.asks
  · right
    refine ⟨serial, answer, ?_, waits⟩
    simp only [ChatBot.set_work, empty, shown, List.nil_append]
  · exact good.ended
  · exact good.gone

/-- A step is spawned when no greenlet is alive. -/
theorem good_spawnCurrentStep (dead : ∀ g, bot.greenlets g = none)
    (valid : bot.currentStep < flow.steps.length) (queued : bot.Queued)
    (empty : bot.queueIn = []) (zero : bot.ends = 0) :
    Good flow (bot.spawnCurrentStep flow) := by
  unfold spawnCurrentStep executeIn
  simp only [List.getElem?_eq_getElem valid]
  constructor
  · intro g different
    simp only [setGreenlet_greenlets, Function.update_of_ne different]
    exact dead g
  · exact valid
  · exact queued.congr rfl rfl rfl rfl
  · intro serial waits
    simp [waitsFor, Greenlet.waitsFor] at waits
  · exact .inl empty
  · exact .inl zero
  · intro impossible
    simp at impossible

theorem Good.go_next (good : Good flow bot) (sound : Sound flow bot (.go_next : UserAction A)) :
    Good flow (bot.go_next flow) := by
  obtain ⟨dead, next⟩ := sound
  apply good_spawnCurrentStep
  · exact dead
  · exact next
  · exact good.queued.congr rfl rfl rfl rfl
  · apply good.queueIn_eq_nil
    simp [waitsFor, dead]
  · rcases good.ended with zero | ⟨_, _, atEnd⟩
    · exact zero
    · omega

/-- Going back leaves nothing of the execution behind. -/
theorem Good.go_back (good : Good flow bot) (sound : Sound flow bot (.go_back : UserAction A)) :
    Good flow (bot.go_back flow) := by
  unfold ChatBot.go_back
  split
  · exact good
  · rename_i moves
    rcases sound with stays | ⟨noOutput, noAnswer, zero⟩
    · exact (moves stays).elim
    · apply good_spawnCurrentStep
      · intro g
        by_cases current : g = bot.greenlet
        · simp [current]
        · simp only [Function.update_of_ne current]
          exact good.current g current
      · have valid := good.valid
        simp only
        split <;> omega
      · constructor
        · simp [noOutput]
        · exact Nat.le_refl _
        · exact good.queued.last
      · exact noAnswer
      · exact zero

theorem Good.step (good : Good flow bot) {action : UserAction A}
    (sound : Sound flow bot action) : Good flow (bot.step flow action) := by
  cases action with
  | run g => exact good.runGreenlet g
  | get_work restore =>
      simp only [ChatBot.step]
      cases got : bot.get_work restore with
      | none => exact good
      | some result => exact (good.get_work sound got).1
  | set_work answer => exact good.set_work sound
  | go_next => exact good.go_next sound
  | go_back => exact good.go_back sound

/-- A sound step is as claimed. -/
theorem Good.asClaimed (good : Good flow bot) {action : UserAction A}
    (sound : Sound flow bot action) : AsClaimed flow bot action := by
  have after := good.step sound
  constructor
  · exact after.alone
  · exact after.valid
  · rintro g serial next given answer queueIn rfl asking queue
    have current : g = bot.greenlet := by
      by_contra different
      rw [good.current g different] at asking
      cases asking
    have own := (good.answer queue).1
    rw [← own, waitsFor, ← current, asking]
    rfl
  · rintro restore serial reached rfl got
    exact (good.get_work sound got).2
  · rcases after.ended with zero | ⟨one, _⟩ <;> omega
  · intro one
    rcases after.ended with zero | ⟨_, dead, atEnd⟩
    · omega
    · refine ⟨atEnd, ?_⟩
      intro g
      by_cases current : g = (bot.step flow action).greenlet
      · rw [current, dead]
      · exact after.current g current
  · intro dead
    exact after.gone (dead _)

/-- In every run of a session in which all steps are sound, all steps are as claimed. -/
theorem stepwise_of_sound (flow : Chatflow F A D) (actions : List (UserAction A))
    (sound : Along (Sound flow) (ChatBot.step flow) (start flow) actions) :
    Along (AsClaimed flow) (ChatBot.step flow) (start flow) actions := by
  apply along_imp_of_invariant (Good flow) (start_good flow) _ _ sound
  · intro bot action good sound
    exact good.asClaimed sound
  · intro bot action good sound
    exact good.step sound

/-! ## Two steps with a question each -/

/-- Both steps ask one question. -/
def twoQuestions : Chatflow Nat Nat String where
  steps := [⟨some (some "first", false), 0⟩, ⟨some (some "second", false), 0⟩]
  steps_ne := by simp
  next
    | 0 => .ask { category := "int_ask", data := "How many?" } true false (fun _ => 1)
    | _ => .done
  endData := ""
  contactSupport := "Something wrong happened, please contact support"

/-- The first question is answered, the second one is shown twice, then the user goes
back from it. -/
theorem stepwise_twoQuestions :
    Along (AsClaimed twoQuestions) (ChatBot.step twoQuestions) (start twoQuestions)
      [.run 0, .run 0, .get_work false, .set_work 7, .run 0, .run 0, .run 0, .run 0,
        .get_work false, .get_work true, .go_back, .run 1, .run 1, .get_work false] := by
  apply stepwise_of_sound
  refine ⟨trivial, trivial, by simp [Sound], ⟨rfl, 0, rfl, rfl⟩, trivial, trivial, trivial,
    trivial, by simp [Sound], ?_, .inr ⟨rfl, rfl, rfl⟩, trivial, trivial, by simp [Sound],
    trivial⟩
  intro _ serial output last
  cases last
  exact ⟨rfl, rfl⟩

/-- While the first question waits for its answer the user goes next. -/
theorem next_runs_beside :
    ¬ Along (AsClaimed twoQuestions) (ChatBot.step twoQuestions) (start twoQuestions)
      [.run 0, .run 0, .get_work false, .go_next] := by
  intro claimed
  have alone := claimed.2.2.2.1.alone 0 1 (Option.isSome_iff_ne_none.mp rfl)
    (Option.isSome_iff_ne_none.mp rfl)
  cases alone

end ChatBot

end JumpscaleX.Chats
