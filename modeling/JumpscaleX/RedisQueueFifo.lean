import JumpscaleX.RedisQueue

/-!
# First in, first out

What was put is what was returned by gets, followed by what is still in the list.
-/

namespace JumpscaleX.RedisQueue

open Runs Stateful

variable {C I : Type}

/-- A list of equal items is the same from both ends. -/
theorem brpoplpush_of_equal {items : List I}
    (equal : ∀ first ∈ items, ∀ second ∈ items, first = second) :
    brpoplpush items = (items.head?, items) := by
  cases items with
  | nil => rfl
  | cons item rest =>
      have same : item :: rest = List.replicate (rest.length + 1) item := by
        apply List.eq_replicate_of_mem
        intro other member
        exact equal other member item List.mem_cons_self
      have last : (item :: rest).getLast? = some item := by
        rw [same]
        simp [List.getLast?_replicate]
      have init : (item :: rest).dropLast = List.replicate rest.length item := by
        rw [same]
        simp
      simp only [brpoplpush, last, init, List.head?_cons]
      rw [same, List.replicate_succ]

/-- Only a list of equal items stays as it is when its last item comes first. -/
theorem equal_of_brpoplpush {items : List I} (same : (brpoplpush items).2 = items) :
    ∀ first ∈ items, ∀ second ∈ items, first = second := by
  cases last : items.getLast? with
  | none =>
      rw [List.getLast?_eq_none_iff.mp last]
      simp
  | some item =>
      have rotated : item :: items.dropLast = items := by simpa [brpoplpush, last] using same
      have turned : items.rotate 1 = items := by
        calc
          items.rotate 1 = (item :: items.dropLast).rotate 1 := by rw [rotated]
          _ = items.dropLast ++ [item] := by simp
          _ = items := List.dropLast_append_getLast? item last
      have : Nonempty I := ⟨item⟩
      obtain ⟨value, replicated⟩ := List.rotate_one_eq_self_iff_eq_replicate.mp turned
      intro first firstMember second secondMember
      rw [replicated] at firstMember secondMember
      rw [List.eq_of_mem_replicate firstMember, List.eq_of_mem_replicate secondMember]

namespace Queue

variable {q : Queue C I}

/-- The gets have returned the items in the order of the puts, each once. -/
def Ordered (q : Queue C I) : Prop := q.puts = q.taken ++ q.items

theorem get_nil (timeout : Nat) (empty : q.items = []) :
    q.get timeout = (q, some (.item none)) := by
  obtain ⟨items, resets, puts, taken⟩ := q
  cases empty
  simp [get, lpop]

theorem get_cons {item : I} {rest : List I} (timeout : Nat) (next : q.items = item :: rest) :
    q.get timeout =
      ({ q with items := rest, taken := q.taken ++ [item] }, some (.item (some item))) := by
  simp [get, next, lpop]

theorem get_ordered (timeout : Nat) (ordered : q.Ordered) : (q.get timeout).1.Ordered := by
  cases items : q.items with
  | nil =>
      rw [get_nil timeout items]
      exact ordered
  | cons item rest =>
      rw [get_cons timeout items]
      rw [Ordered, items] at ordered
      simp [Ordered, ordered]

end Queue

variable [DecidableEq C]

def Action.IsPut : Action C I → Prop
  | .put _ _ => True
  | _ => False

/-- The action is the next command of the client's `reset`. -/
def Action.goesOn (client : C) : Action C I → Bool
  | .resetStep other => decide (other = client)
  | _ => false

namespace Queue

variable {q : Queue C I}

/-- A blocking `fetch` finds equal items only, and a `reset` that nobody disturbs
with puts is not overtaken between its test and its pop. -/
def Sound (q : Queue C I) : Action C I → Prop
  | .fetch client true => q.resets client = none →
      ∀ first ∈ q.items, ∀ second ∈ q.items, first = second
  | .resetStep client => q.resets client = some ⟨.popping, true⟩ → q.items ≠ []
  | _ => True

/-- The steps of a client of its own suffice for its `reset`, whatever the others
remove. -/
def Terminates (q : Queue C I) (client : C) : Prop :=
  ∀ later : List (Action C I),
    (∀ action ∈ later, ¬ action.IsPut ∧ action ≠ .reset client) →
    2 * q.items.length + 2 ≤ later.countP (Action.goesOn client) →
    (run step q later).resets client = none

/-- What a step is to do: gets return the items in the order of the puts, `fetch`
returns the item that is next and leaves the queue as it is, a `reset` ends, without
an error and with the queue empty when nobody puts meanwhile. -/
structure AsClaimed (q : Queue C I) (action : Action C I) : Prop where
  ordered : (q.step action).taken <+: (q.step action).puts
  fetched : ∀ client block, action = .fetch client block → q.resets client = none →
    (q.step action).items = q.items ∧ q.reply action = some (.item q.items.head?)
  resets : ∀ client phase, action = .resetStep client →
    q.resets client = some ⟨phase, true⟩ →
    q.reply action ≠ some .attributeError ∧
    (q.reply action = some .done → (q.step action).items = [])
  terminates : ∀ client, action = .reset client → q.resets client = none →
    (q.step action).Terminates client

@[simp] theorem setReset_ordered (client : C) (resetting : Option Resetting) :
    (q.setReset client resetting).Ordered ↔ q.Ordered := Iff.rfl

theorem resetStep_ordered (client : C) (resetting : Resetting) (ordered : q.Ordered) :
    (q.resetStep client resetting).1.Ordered := by
  unfold resetStep
  split
  · split
    · exact ordered
    · exact ordered
  · have after := get_ordered 0 ordered
    split
    · rename_i rest popped
      rw [get_nowait] at popped
      simpa [popped] using after
    · rename_i rest _ _ popped
      rw [get_nowait] at popped
      simpa [popped] using after

/-- Sound steps keep the order. -/
theorem Ordered.step (ordered : q.Ordered) {action : Action C I} (sound : q.Sound action) :
    (q.step action).Ordered := by
  cases action with
  | put client item =>
      simp only [Queue.step, perform]
      split
      · rw [Ordered] at ordered
        simp [put, rpush, Ordered, ordered]
      · exact ordered
  | get client timeout =>
      simp only [Queue.step, perform]
      split
      · exact get_ordered timeout ordered
      · exact ordered
  | get_nowait client =>
      simp only [Queue.step, perform]
      split
      · exact get_ordered 0 ordered
      · exact ordered
  | fetch client block =>
      simp only [Queue.step, perform]
      split
      · rename_i idle
        cases block with
        | false => exact ordered
        | true =>
            have equal := sound (Option.isNone_iff_eq_none.mp idle)
            simpa [fetch, brpoplpush_of_equal equal] using ordered
      · exact ordered
  | qsize client =>
      simp only [Queue.step, perform]
      split
      · exact ordered
      · exact ordered
  | reset client =>
      simp only [Queue.step, perform]
      split
      · exact ordered
      · exact ordered
  | resetStep client =>
      simp only [Queue.step, perform]
      split
      · exact resetStep_ordered client _ ordered
      · exact ordered

/-- How many commands a `reset` still takes at most. -/
def remaining (q : Queue C I) (client : C) : Nat :=
  match q.resets client with
  | none => 0
  | some ⟨.checking, _⟩ => 2 * q.items.length + 2
  | some ⟨.popping, _⟩ => 2 * q.items.length + 1

theorem remaining_eq_zero_iff {client : C} :
    q.remaining client = 0 ↔ q.resets client = none := by
  unfold remaining
  split <;> simp_all

/-- What leaves the calls of `reset` alone and adds no item adds no command. -/
theorem remaining_le {other : Queue C I} {client : C}
    (resets : other.resets client = q.resets client)
    (shorter : other.items.length ≤ q.items.length) :
    other.remaining client ≤ q.remaining client := by
  unfold remaining
  rw [resets]
  split <;> omega

theorem remaining_get_le (timeout : Nat) (client : C) :
    (q.get timeout).1.remaining client ≤ q.remaining client := by
  cases items : q.items with
  | nil =>
      rw [get_nil timeout items]
  | cons item rest =>
      rw [get_cons timeout items]
      apply remaining_le
      · rfl
      · simp [items]

theorem remaining_fetch_le (block : Bool) (client : C) :
    (q.fetch block).1.remaining client ≤ q.remaining client := by
  cases block with
  | false => exact Nat.le_refl _
  | true =>
      apply remaining_le
      · rfl
      · simp only [fetch, brpoplpush, if_true]
        split
        · exact Nat.le_refl _
        · rename_i last
          have := (List.getLast?_eq_some_iff.mp last)
          obtain ⟨init, items⟩ := this
          simp [items]

/-- A command of the client's own `reset` brings its end closer. -/
theorem remaining_resetStep_lt {client : C} {resetting : Resetting}
    (under : q.resets client = some resetting) :
    (q.resetStep client resetting).1.remaining client < q.remaining client := by
  obtain ⟨phase, alone⟩ := resetting
  cases phase with
  | checking =>
      simp only [resetStep]
      split
      · simp [remaining, setReset, under]
      · simp [remaining, setReset, under]
  | popping =>
      cases items : q.items with
      | nil => simp [resetStep, get_nowait, get_nil 0 items, remaining, setReset, under]
      | cons item rest =>
          simp [resetStep, get_nowait, get_cons 0 items, remaining, setReset, under, items]
          omega

theorem remaining_resetStep_le (q : Queue C I) {client other : C} (resetting : Resetting)
    (different : client ≠ other) :
    (q.resetStep other resetting).1.remaining client ≤ q.remaining client := by
  obtain ⟨phase, alone⟩ := resetting
  cases phase with
  | checking =>
      simp only [resetStep]
      split
      · apply remaining_le
        · simp [setReset, different]
        · exact Nat.le_refl _
      · apply remaining_le
        · simp [setReset, different]
        · exact Nat.le_refl _
  | popping =>
      cases items : q.items with
      | nil =>
          simp only [resetStep, get_nowait, get_nil 0 items]
          apply remaining_le
          · simp [setReset, different]
          · exact Nat.le_refl _
      | cons item rest =>
          simp only [resetStep, get_nowait, get_cons 0 items]
          apply remaining_le
          · simp [setReset, different]
          · simp [setReset, items]

/-- The commands of the client count down, those of the others do not count up. -/
theorem remaining_step_le {client : C} {action : Action C I} (quiet : ¬ action.IsPut)
    (under : action ≠ .reset client) :
    (q.step action).remaining client ≤
      q.remaining client - (if action.goesOn client then 1 else 0) := by
  cases action with
  | put other item => exact absurd trivial quiet
  | get other timeout =>
      simp only [step, perform]
      split
      · simpa [Action.goesOn] using remaining_get_le timeout client
      · simp [Action.goesOn]
  | get_nowait other =>
      simp only [step, perform]
      split
      · simpa [Action.goesOn, get_nowait] using remaining_get_le 0 client
      · simp [Action.goesOn]
  | fetch other block =>
      simp only [step, perform]
      split
      · simpa [Action.goesOn] using remaining_fetch_le block client
      · simp [Action.goesOn]
  | qsize other =>
      simp only [step, perform]
      split
      · simp [Action.goesOn]
      · simp [Action.goesOn]
  | reset other =>
      have different : client ≠ other := by
        intro same
        exact under (same ▸ rfl)
      simp only [step, perform]
      split
      · simp only [Action.goesOn, Bool.false_eq_true, if_false, Nat.sub_zero]
        apply remaining_le
        · simp [setReset, different]
        · exact Nat.le_refl _
      · simp [Action.goesOn]
  | resetStep other =>
      simp only [step, perform]
      split
      · rename_i resetting found
        by_cases same : other = client
        · subst same
          have := remaining_resetStep_lt found
          simp only [Action.goesOn, decide_true, if_true]
          omega
        · simpa [Action.goesOn, same] using
            remaining_resetStep_le q resetting (Ne.symm same)
      · rename_i found
        by_cases same : other = client
        · subst same
          simp [remaining_eq_zero_iff.mpr found]
        · simp [Action.goesOn, same]

theorem remaining_run_le {client : C} (later : List (Action C I))
    (quiet : ∀ action ∈ later, ¬ action.IsPut ∧ action ≠ .reset client) :
    (run step q later).remaining client ≤
      q.remaining client - later.countP (Action.goesOn client) := by
  induction later generalizing q with
  | nil => simp
  | cons action later induction =>
      obtain ⟨⟨noPut, under⟩, rest⟩ := List.forall_mem_cons.mp quiet
      have first := remaining_step_le (q := q) noPut under
      have others := induction (q := q.step action) rest
      rw [run_cons, List.countP_cons]
      omega

theorem terminates_of_remaining {client : C}
    (bounded : q.remaining client ≤ 2 * q.items.length + 2) : q.Terminates client := by
  intro later quiet enough
  apply remaining_eq_zero_iff.mp
  have := remaining_run_le later quiet (q := q)
  omega

theorem asClaimed_of_sound (ordered : q.Ordered) {action : Action C I}
    (sound : q.Sound action) : q.AsClaimed action where
  ordered := ⟨_, (ordered.step sound).symm⟩
  fetched := by
    intro client block fetches idle
    subst fetches
    cases block with
    | false => simp [step, reply, perform, idle, fetch, List.head?_eq_getElem?]
    | true =>
        have equal := brpoplpush_of_equal (sound idle)
        simp [step, reply, perform, idle, fetch, equal]
  resets := by
    intro client phase goesOn under
    subst goesOn
    cases phase with
    | checking =>
        by_cases empty : q.empty = true
        · have none : q.items = [] := by simpa [Queue.empty, qsize] using empty
          simp [step, reply, perform, under, resetStep, empty, setReset, none]
        · simp [step, reply, perform, under, resetStep, empty]
    | popping =>
        obtain ⟨item, rest, items⟩ := List.exists_cons_of_ne_nil (sound under)
        simp [step, reply, perform, under, resetStep, get_nowait, get_cons 0 items]
  terminates := by
    intro client starts idle
    subst starts
    apply terminates_of_remaining
    simp [step, perform, idle, remaining, setReset]

/-- Each unsound step is one that the queue does not survive. -/
theorem sound_of_asClaimed {action : Action C I} (claimed : q.AsClaimed action) :
    q.Sound action := by
  cases action with
  | fetch client block =>
      cases block with
      | false => trivial
      | true =>
          intro idle
          obtain ⟨same, _⟩ := claimed.fetched client true rfl idle
          apply equal_of_brpoplpush
          simpa [step, perform, idle, fetch] using same
  | resetStep client =>
      intro under empty
      obtain ⟨noError, _⟩ := claimed.resets client .popping rfl under
      apply noError
      simp [reply, perform, under, resetStep, get_nowait, get_nil 0 empty]
  | put client item => trivial
  | get client timeout => trivial
  | get_nowait client => trivial
  | qsize client => trivial
  | reset client => trivial

/-- In every run, with any number of clients and any interleaving of their commands:
all steps are as claimed exactly when all are sound. -/
theorem fifo_iff (items : List I) (actions : List (Action C I)) :
    Along AsClaimed step (start items) actions ↔ Along Sound step (start items) actions := by
  apply along_iff Ordered
  · rfl
  · intro state action ordered
    exact ⟨sound_of_asClaimed, asClaimed_of_sound ordered⟩
  · intro state action ordered sound
    exact ordered.step sound

/-- A blocking `fetch` returns the item that was put last, and puts it first. -/
theorem fetch_turns_queue :
    ¬ Along AsClaimed step (start [] : Queue Nat Nat)
      [.put 0 1, .put 0 2, .fetch 1 true, .get_nowait 1] := by
  intro claimed
  obtain ⟨same, _⟩ := claimed.2.2.1.fetched 1 true rfl rfl
  exact absurd same (by decide)

end Queue

end JumpscaleX.RedisQueue
