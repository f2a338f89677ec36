import JumpscaleX.ChatFactory

/-!
# A chat session

`GedisChatBot`: the steps of a chat flow run in greenlets of the session, which talk to
the user through two queues.  The code of a step is given as a machine that sends, asks,
raises or is done.  Beside the session stands what is needed to speak about it: outputs
are numbered, and an answer carries the number of the output that the user saw.
-/

namespace JumpscaleX.Chats

open Runs Stateful

/-- What the code of a step does next.  `ask` sends a message and waits for the answer;
`stop` raises `StopChatFlow`, `raise` any other exception. -/
inductive Op (F A D : Type)
  | send (data : Payload D) (isSlide retry : Bool) (next : F)
  | ask (data : Payload D) (isSlide retry : Bool) (next : A → F)
  | stop (msg : Option D)
  | raise
  | done

/-- A step: what `chatflow_step` was given, if it decorates the step, and the code. -/
structure Step (F : Type) where
  decoration : Option (Option String × Bool)
  code : F

/-- A chat flow.  A session of a flow without steps is not made. -/
structure Chatflow (F A D : Type) where
  steps : List (Step F)
  steps_ne : steps ≠ []
  next : F → Op F A D
  endData : D
  contactSupport : D

/-- An entry of `_steps_info`. -/
structure StepInfo where
  slide : Nat
  title : Option String
  previous : Bool
  deriving DecidableEq, Repr

def StepInfo.default : StepInfo := ⟨0, none, false⟩

/-- A greenlet that executes steps: at the beginning of a step, in its code, or waiting
for an answer, to the question of the code or to an error message. -/
inductive Greenlet (F A : Type)
  | starting (step : Step F)
  | running (code : F)
  | asking (serial : Nat) (next : A → F)
  | reporting (serial : Nat) (internal : Bool)

/-- A session.  Greenlets are numbered as they are spawned, and `greenlet` is the number
of the last one.

Not in the code: `sent` counts the outputs, `delivered` those that were delivered or
that a restart left behind, `shown` is the output that the user saw last since then,
`ends` counts the end messages, and `failed` says that an internal error ended the
greenlet. -/
structure ChatBot (F A D : Type) where
  currentStep : Nat
  stepsInfo : Nat → StepInfo
  greenlets : Nat → Option (Greenlet F A)
  greenlet : Nat
  lastOutput : Option (Nat × Output D)
  queueOut : List (Nat × Output D)
  queueIn : List (Option Nat × A)
  sent : Nat
  delivered : Nat
  shown : Option Nat
  ends : Nat
  failed : Bool

/-- The greenlets of a session run, or its user acts. -/
inductive UserAction (A : Type)
  | run (greenlet : Nat)
  | get_work (restore : Bool)
  | set_work (answer : A)
  | go_next
  | go_back
  deriving DecidableEq, Repr

namespace ChatBot

variable {F A D : Type} (flow : Chatflow F A D) (bot : ChatBot F A D)

def stepInfo : StepInfo := bot.stepsInfo bot.currentStep

def isFirstSlide : Bool := bot.stepInfo.slide = 1

def isFirstStep : Bool := bot.currentStep = 0

def isLastStep : Bool := flow.steps.length - 1 ≤ bot.currentStep

def info : Info where
  step := bot.currentStep + 1
  steps := flow.steps.length
  title := bot.stepInfo.title
  previous := !(bot.isFirstSlide && (bot.isFirstStep || !bot.stepInfo.previous))
  lastStep := bot.isLastStep flow
  firstStep := bot.isFirstStep
  firstSlide := bot.isFirstSlide
  slide := bot.stepInfo.slide

def setGreenlet (g : Nat) (greenlet : Option (Greenlet F A)) : ChatBot F A D :=
  { bot with greenlets := Function.update bot.greenlets g greenlet }

def setStepInfo (info : StepInfo) : ChatBot F A D :=
  { bot with stepsInfo := Function.update bot.stepsInfo bot.currentStep info }

/-- The part of `send_data` that counts slides. -/
def countSlide (isSlide retry : Bool) : ChatBot F A D :=
  if isSlide && !retry then
    bot.setStepInfo { bot.stepInfo with slide := bot.stepInfo.slide + 1 }
  else bot

/-- `send_data`. -/
def sendData (data : Payload D) (isSlide retry : Bool) : ChatBot F A D :=
  let counted := bot.countSlide isSlide retry
  let output : Output D := { info := counted.info flow, payload := data }
  { counted with
    lastOutput := some (counted.sent, output)
    queueOut := counted.queueOut ++ [(counted.sent, output)]
    sent := counted.sent + 1 }

/-- The first part of `send_error`; the greenlet waits for an answer then. -/
def sendError (g : Nat) (message : D) (internal : Bool) : ChatBot F A D :=
  (bot.sendData flow { category := "error", data := message } false false).setGreenlet g
    (some (.reporting bot.sent internal))

/-- `_execute_current_step` in a greenlet.  An index beyond the steps is an error. -/
def executeIn (g : Nat) : ChatBot F A D :=
  match flow.steps[bot.currentStep]? with
  | none => bot
  | some step =>
      (bot.setStepInfo { bot.stepInfo with slide := 0 }).setGreenlet g (some (.starting step))

/-- `_execute_current_step`, in a new greenlet. -/
def spawnCurrentStep : ChatBot F A D :=
  match flow.steps[bot.currentStep]? with
  | none => bot
  | some _ =>
      { bot.executeIn flow (bot.greenlet + 1) with
        greenlet := bot.greenlet + 1
        failed := false }

/-- What follows in a greenlet on a step that ended without an internal error. -/
def afterStep (g : Nat) : ChatBot F A D :=
  if bot.isLastStep flow then
    { (bot.sendData flow { category := "end", data := flow.endData } false false).setGreenlet
        g none with
      ends := bot.ends + 1 }
  else { bot with currentStep := bot.currentStep + 1 }.executeIn flow g

/-- The wrapper that `chatflow_step` puts around a step. -/
def decorate (step : Step F) : ChatBot F A D :=
  match step.decoration with
  | none => bot
  | some (title, disablePrevious) =>
      bot.setStepInfo { slide := 0, title := title, previous := !disablePrevious }

/-- A greenlet goes on in the code of its step. -/
def runCode (g : Nat) (code : F) : ChatBot F A D :=
  match flow.next code with
  | .send data isSlide retry next =>
      (bot.sendData flow data isSlide retry).setGreenlet g (some (.running next))
  | .ask data isSlide retry next =>
      (bot.sendData flow data isSlide retry).setGreenlet g (some (.asking bot.sent next))
  | .stop (some msg) => bot.sendError flow g msg false
  | .stop none => bot.afterStep flow g
  | .raise => bot.sendError flow g flow.contactSupport true
  | .done => bot.afterStep flow g

/-- A greenlet goes on; one that waits for an answer takes it from the queue. -/
def runGreenlet (g : Nat) : ChatBot F A D :=
  match bot.greenlets g with
  | none => bot
  | some (.starting step) => (bot.decorate step).setGreenlet g (some (.running step.code))
  | some (.running code) => bot.runCode flow g code
  | some (.asking _ next) =>
      match bot.queueIn with
      | [] => bot
      | (_, answer) :: queueIn =>
          { bot with queueIn := queueIn }.setGreenlet g (some (.running (next answer)))
  | some (.reporting _ internal) =>
      match bot.queueIn with
      | [] => bot
      | _ :: queueIn =>
          if internal then
            { { bot with queueIn := queueIn }.setGreenlet g none with failed := true }
          else { bot with queueIn := queueIn }.afterStep flow g

/-- `get_work` up to its return, if it returns: the output, and the session after it. -/
def get_work (restore : Bool) : Option (Nat × ChatBot F A D) :=
  match restore, bot.lastOutput with
  | true, some (serial, _) =>
      some (serial, { bot with delivered := serial + 1, shown := some serial })
  | _, _ =>
      match bot.queueOut with
      | [] => none
      | (serial, _) :: queueOut =>
          some (serial,
            { bot with
              queueOut := queueOut
              delivered := serial + 1
              shown := some serial })

/-- `set_work`. -/
def set_work (answer : A) : ChatBot F A D :=
  { bot with queueIn := bot.queueIn ++ [(bot.shown, answer)] }

/-- `go_next`. -/
def go_next : ChatBot F A D :=
  { bot with currentStep := bot.currentStep + 1 }.spawnCurrentStep flow

/-- `go_back` does nothing at the first slide of the first step. -/
def staysBack : Bool := bot.isFirstSlide && bot.isFirstStep

/-- `go_back`. -/
def go_back : ChatBot F A D :=
  if bot.staysBack then bot
  else
    let killed :=
      { bot with
        currentStep := if bot.isFirstSlide then bot.currentStep - 1 else bot.currentStep
        greenlets := Function.update bot.greenlets bot.greenlet none
        delivered := bot.sent
        shown := none }
    killed.spawnCurrentStep flow

/-- One step; a call of `get_work` that has to wait goes on later. -/
def step : UserAction A → ChatBot F A D
  | .run g => bot.runGreenlet flow g
  | .get_work restore =>
      match bot.get_work restore with
      | none => bot
      | some (_, reached) => reached
  | .set_work answer => bot.set_work answer
  | .go_next => bot.go_next flow
  | .go_back => bot.go_back flow

/-- A new session, whose first step is spawned. -/
def start (flow : Chatflow F A D) : ChatBot F A D where
  currentStep := 0
  stepsInfo _ := .default
  greenlets := Function.update (fun _ => none) 0 (flow.steps.head?.map Greenlet.starting)
  greenlet := 0
  lastOutput := none
  queueOut := []
  queueIn := []
  sent := 0
  delivered := 0
  shown := none
  ends := 0
  failed := false

end ChatBot

end JumpscaleX.Chats
