import Mathlib.Tactic.Common
import Mathlib.Data.List.Forall2

/-!
# Computations that can fail

Rules for `Except`, and for `EStateM`, in which a failing computation keeps
the state it reached.  A computation is taken apart at its binds, and what a
single computation keeps is carried over sequences, loops and runs.
-/

universe u

namespace Fallible

variable {ε α β : Type u}

/-- Fail with the given problem unless a condition holds. -/
def ensure (condition : Prop) [Decidable condition] (problem : ε) :
    Except ε PUnit :=
  if condition then .ok () else .error problem

@[simp] theorem bind_eq_ok_iff {first : Except ε α} {next : α → Except ε β}
    {result : β} :
    (first >>= next) = .ok result ↔
      ∃ value, first = .ok value ∧ next value = .ok result := by
  cases first <;> simp [bind, Except.bind]

@[simp] theorem pure_eq_ok_iff {value result : α} :
    (pure value : Except ε α) = .ok result ↔ value = result := by
  simp [pure, Except.pure]

@[simp] theorem ensure_eq_ok_iff {condition : Prop} [Decidable condition]
    {problem : ε} {result : PUnit} :
    ensure condition problem = .ok result ↔ condition := by
  unfold ensure
  split
  · rename_i holds
    simp [holds]
  · rename_i fails
    simp [fails]

@[simp] theorem ensure_eq_error_iff {condition : Prop} [Decidable condition]
    {problem other : ε} :
    ensure condition problem = .error other ↔ ¬ condition ∧ problem = other := by
  unfold ensure
  split
  · rename_i holds
    simp [holds]
  · rename_i fails
    simp [fails]

@[simp] theorem bind_eq_error_iff {first : Except ε α} {next : α → Except ε β}
    {problem : ε} :
    (first >>= next) = .error problem ↔
      first = .error problem ∨
        ∃ value, first = .ok value ∧ next value = .error problem := by
  cases first <;> simp [bind, Except.bind]

@[simp] theorem pure_ne_error {value : α} {problem : ε} :
    (pure value : Except ε α) ≠ .error problem := by
  simp [pure, Except.pure]

/-- A loop that collects results succeeds when every step does. -/
theorem mapM_ok_iff {ι : Type u} {items : List ι} {body : ι → Except ε α}
    {values : List α} :
    items.mapM body = .ok values ↔
      List.Forall₂ (fun item value => body item = .ok value) items values := by
  induction items generalizing values with
  | nil => cases values <;> simp [pure, Except.pure]
  | cons item rest induction =>
      simp only [List.mapM_cons, bind_eq_ok_iff, pure_eq_ok_iff, induction]
      constructor
      · rintro ⟨value, first, others, later, rfl⟩
        exact .cons first later
      · rintro (_ | ⟨first, later⟩)
        exact ⟨_, first, _, later, rfl⟩

/-- Of two lists that agree item by item, every item of the first has one in the
second. -/
theorem exists_of_mem_left {ι : Type u} {agree : ι → α → Prop} {items : List ι}
    {values : List α} (pointwise : List.Forall₂ agree items values) {item : ι}
    (member : item ∈ items) : ∃ value ∈ values, agree item value := by
  induction pointwise with
  | nil => cases member
  | @cons _ value _ _ first _ induction =>
      rcases List.mem_cons.mp member with same | later
      · subst same
        exact ⟨value, List.mem_cons_self, first⟩
      · obtain ⟨other, inside, agrees⟩ := induction later
        exact ⟨other, List.mem_cons_of_mem _ inside, agrees⟩

theorem exists_of_mem_right {ι : Type u} {agree : ι → α → Prop} {items : List ι}
    {values : List α} (pointwise : List.Forall₂ agree items values) {value : α}
    (member : value ∈ values) : ∃ item ∈ items, agree item value :=
  exists_of_mem_left pointwise.flip member

theorem mapM_congr {ι : Type u} {items : List ι} {first second : ι → Except ε α}
    (same : ∀ item ∈ items, first item = second item) :
    items.mapM first = items.mapM second := by
  induction items with
  | nil => rfl
  | cons item rest induction =>
      have later := induction (fun other member => same other (List.mem_cons_of_mem _ member))
      rw [List.mapM_cons, List.mapM_cons, same item List.mem_cons_self, later]

/-- What every step of a loop keeps, the loop keeps. -/
theorem foldlM_keeps {ι : Type u} {body : α → ι → Except ε α} (property : α → Prop)
    (step : ∀ state item next, property state → body state item = .ok next →
      property next)
    {items : List ι} {start reached : α} (holds : property start)
    (done : items.foldlM body start = .ok reached) : property reached := by
  induction items generalizing start with
  | nil =>
      cases done
      exact holds
  | cons item rest induction =>
      rw [List.foldlM_cons, bind_eq_ok_iff] at done
      obtain ⟨between, first, later⟩ := done
      exact induction (step start item between holds first) later

/-- A loop whose steps imitate those of another one imitates the whole run. -/
theorem foldlM_imitates {ι : Type u} {body : α → ι → Except ε α}
    (imitation : β → ι → Except ε β) (related : α → β → Prop)
    (step : ∀ state state' item next, related state state' →
      body state item = .ok next →
        ∃ next', imitation state' item = .ok next' ∧ related next next')
    {items : List ι} {start reached : α} {start' : β} (relates : related start start')
    (done : items.foldlM body start = .ok reached) :
    ∃ reached', items.foldlM imitation start' = .ok reached' ∧
      related reached reached' := by
  induction items generalizing start start' with
  | nil =>
      cases done
      exact ⟨start', rfl, relates⟩
  | cons item rest induction =>
      rw [List.foldlM_cons, bind_eq_ok_iff] at done
      obtain ⟨between, first, later⟩ := done
      obtain ⟨between', first', relates'⟩ := step start start' item between relates first
      obtain ⟨reached', later', ends⟩ := induction relates' later
      refine ⟨reached', ?_, ends⟩
      rw [List.foldlM_cons, bind_eq_ok_iff]
      exact ⟨between', first', later'⟩

/-- Every error of an outcome is of the given kind. -/
def RaisesOnly (kind : ε → Prop) (outcome : Except ε α) : Prop :=
  ∀ problem, outcome = .error problem → kind problem

namespace RaisesOnly

variable {kind : ε → Prop}

theorem ok (value : α) : RaisesOnly kind (.ok value : Except ε α) := by
  intro problem impossible
  cases impossible

theorem error {problem : ε} (holds : kind problem) :
    RaisesOnly kind (.error problem : Except ε α) := by
  intro other same
  cases same
  exact holds

theorem ensure {ε : Type} {kind : ε → Prop} {condition : Prop}
    [Decidable condition] {problem : ε} (holds : kind problem) :
    RaisesOnly kind (Fallible.ensure condition problem) := by
  intro other failed
  rw [ensure_eq_error_iff] at failed
  rw [← failed.2]
  exact holds

theorem bind {first : Except ε α} {next : α → Except ε β}
    (firstRaises : RaisesOnly kind first)
    (nextRaises : ∀ value, RaisesOnly kind (next value)) :
    RaisesOnly kind (first >>= next) := by
  intro problem failed
  rw [bind_eq_error_iff] at failed
  rcases failed with failed | ⟨value, _, failed⟩
  · exact firstRaises problem failed
  · exact nextRaises value problem failed

theorem map {outcome : Except ε α} {change : α → β}
    (raises : RaisesOnly kind outcome) :
    RaisesOnly kind (outcome.map change) := by
  intro problem failed
  cases outcome with
  | ok value => cases failed
  | error other =>
      cases failed
      exact raises _ rfl

theorem mapM {ι : Type u} {items : List ι} {body : ι → Except ε α}
    (raises : ∀ item ∈ items, RaisesOnly kind (body item)) :
    RaisesOnly kind (items.mapM body) := by
  induction items with
  | nil => exact ok _
  | cons item rest induction =>
      rw [List.mapM_cons]
      refine bind (raises item List.mem_cons_self) (fun _ => bind ?_ (fun _ => ok _))
      exact induction (fun later member => raises later (List.mem_cons_of_mem _ member))

theorem forM {ι : Type u} {items : List ι} {body : ι → Except ε PUnit}
    (raises : ∀ item ∈ items, RaisesOnly kind (body item)) :
    RaisesOnly kind (items.forM body) := by
  induction items with
  | nil => exact ok _
  | cons item rest induction =>
      refine bind (raises item List.mem_cons_self) (fun _ => ?_)
      exact induction (fun later member => raises later (List.mem_cons_of_mem _ member))

theorem foldlM {ι : Type u} {items : List ι} {body : α → ι → Except ε α}
    {start : α} (raises : ∀ value, ∀ item ∈ items, RaisesOnly kind (body value item)) :
    RaisesOnly kind (items.foldlM body start) := by
  induction items generalizing start with
  | nil => exact ok _
  | cons item rest induction =>
      rw [List.foldlM_cons]
      refine bind (raises start item List.mem_cons_self) (fun _ => ?_)
      exact induction (fun value later member =>
        raises value later (List.mem_cons_of_mem _ member))

end RaisesOnly

theorem ensure_of {condition : Prop} [Decidable condition] {problem : ε}
    (holds : condition) : ensure condition problem = .ok PUnit.unit :=
  ensure_eq_ok_iff.mpr holds

theorem ensure_of_not {condition : Prop} [Decidable condition] {problem : ε}
    (fails : ¬ condition) : ensure condition problem = .error problem := by
  simp [ensure, fails]

end Fallible

namespace Stateful

variable {ε σ τ α β : Type u}

/-- A computation that leaves the state alone. -/
def attempt (outcome : Except ε α) : EStateM ε σ α := fun state =>
  match outcome with
  | .ok value => .ok value state
  | .error problem => .error problem state

/-- A computation on a part of the state. -/
def onPart (get : σ → τ) (put : σ → τ → σ) (computation : EStateM ε τ α) :
    EStateM ε σ α := fun state =>
  match computation (get state) with
  | .ok value part => .ok value (put state part)
  | .error problem part => .error problem (put state part)

/-- Read something off the state. -/
def query (read : σ → Except ε α) : EStateM ε σ α := fun state =>
  match read state with
  | .ok value => .ok value state
  | .error problem => .error problem state

/-- Move to a new state, or fail in the present one. -/
def advance (step : σ → Except ε σ) : EStateM ε σ PUnit := fun state =>
  match step state with
  | .ok reached => .ok PUnit.unit reached
  | .error problem => .error problem state

/-- A computation whose failure is reported under another name. -/
def rename (translate : ε → ε) (computation : EStateM ε σ α) :
    EStateM ε σ α := fun state =>
  match computation state with
  | .ok value reached => .ok value reached
  | .error problem reached => .error (translate problem) reached

/-- Run a computation under a condition. -/
def runIf (condition : Prop) [Decidable condition]
    (computation : EStateM ε σ PUnit) : EStateM ε σ PUnit :=
  if condition then computation else Pure.pure PUnit.unit

@[simp] theorem return_eq_ok_iff {state reached : σ} {value result : α} :
    (Pure.pure value : EStateM ε σ α) state = .ok result reached ↔
      value = result ∧ state = reached := by
  simp [Pure.pure, EStateM.pure]

@[simp] theorem return_ne_error {state reached : σ} {value : α} {problem : ε} :
    (Pure.pure value : EStateM ε σ α) state ≠ .error problem reached := by
  simp [Pure.pure, EStateM.pure]

@[simp] theorem throw_ne_ok {state reached : σ} {value : α} {problem : ε} :
    (throw problem : EStateM ε σ α) state ≠ .ok value reached := by
  show EStateM.Result.error problem state ≠ .ok value reached
  simp

@[simp] theorem throw_eq_error_iff {state reached : σ} {problem other : ε} :
    (throw problem : EStateM ε σ α) state = .error other reached ↔
      problem = other ∧ state = reached := by
  show EStateM.Result.error problem state = .error other reached ↔ _
  simp

@[simp] theorem get_eq_ok_iff {state reached value : σ} :
    (getThe σ : EStateM ε σ σ) state = .ok value reached ↔
      state = value ∧ state = reached := by
  show EStateM.Result.ok state state = .ok value reached ↔ _
  simp

@[simp] theorem get_ne_error {state reached : σ} {problem : ε} :
    (getThe σ : EStateM ε σ σ) state ≠ .error problem reached := by
  show EStateM.Result.ok state state ≠ .error problem reached
  simp

@[simp] theorem modify_eq_ok_iff {state reached : σ} {change : σ → σ}
    {value : PUnit} :
    (modify change : EStateM ε σ PUnit) state = .ok value reached ↔
      change state = reached := by
  show EStateM.Result.ok PUnit.unit (change state) = .ok value reached ↔ _
  simp

@[simp] theorem modify_ne_error {state reached : σ} {change : σ → σ}
    {problem : ε} :
    (modify change : EStateM ε σ PUnit) state ≠ .error problem reached := by
  show EStateM.Result.ok PUnit.unit (change state) ≠ .error problem reached
  simp

@[simp] theorem get_seq {next : σ → EStateM ε σ β} {state : σ} :
    ((getThe σ : EStateM ε σ σ) >>= next) state = next state state := rfl

@[simp] theorem modify_seq {change : σ → σ} {next : PUnit → EStateM ε σ β}
    {state : σ} :
    ((modify change : EStateM ε σ PUnit) >>= next) state =
      next PUnit.unit (change state) := rfl

@[simp] theorem return_seq {value : α} {next : α → EStateM ε σ β} {state : σ} :
    ((Pure.pure value : EStateM ε σ α) >>= next) state = next value state := rfl

@[simp] theorem runIf_return {condition : Prop} [Decidable condition] :
    runIf condition (Pure.pure PUnit.unit : EStateM ε σ PUnit) =
      Pure.pure PUnit.unit := by
  unfold runIf
  split <;> rfl

theorem runIf_of_not {condition : Prop} [Decidable condition]
    {computation : EStateM ε σ PUnit} (fails : ¬ condition) :
    runIf condition computation = Pure.pure PUnit.unit :=
  if_neg fails

theorem runIf_eq_ok_iff {condition : Prop} [Decidable condition]
    {computation : EStateM ε σ PUnit} {state reached : σ} {value : PUnit} :
    runIf condition computation state = .ok value reached ↔
      condition ∧ computation state = .ok value reached ∨
        ¬ condition ∧ state = reached := by
  unfold runIf
  split
  · rename_i holds
    simp [holds]
  · rename_i fails
    simp [fails]

theorem runIf_eq_error_iff {condition : Prop} [Decidable condition]
    {computation : EStateM ε σ PUnit} {state reached : σ} {problem : ε} :
    runIf condition computation state = .error problem reached ↔
      condition ∧ computation state = .error problem reached := by
  unfold runIf
  split
  · rename_i holds
    simp [holds]
  · rename_i fails
    simp [fails]

@[simp] theorem query_eq_ok_iff {read : σ → Except ε α} {state reached : σ}
    {value : α} :
    query read state = .ok value reached ↔
      read state = .ok value ∧ state = reached := by
  unfold query
  cases read state <;> simp [eq_comm]

@[simp] theorem query_eq_error_iff {read : σ → Except ε α} {state reached : σ}
    {problem : ε} :
    query read state = .error problem reached ↔
      read state = .error problem ∧ state = reached := by
  unfold query
  cases read state <;> simp [eq_comm]

@[simp] theorem advance_eq_ok_iff {step : σ → Except ε σ} {state reached : σ}
    {value : PUnit} :
    advance step state = .ok value reached ↔ step state = .ok reached := by
  unfold advance
  cases step state <;> simp

@[simp] theorem advance_eq_error_iff {step : σ → Except ε σ}
    {state reached : σ} {problem : ε} :
    advance step state = .error problem reached ↔
      step state = .error problem ∧ state = reached := by
  unfold advance
  cases step state <;> simp [eq_comm]

@[simp] theorem rename_eq_ok_iff {translate : ε → ε}
    {computation : EStateM ε σ α} {state reached : σ} {value : α} :
    rename translate computation state = .ok value reached ↔
      computation state = .ok value reached := by
  unfold rename
  cases computation state <;> simp

@[simp] theorem rename_eq_error_iff {translate : ε → ε}
    {computation : EStateM ε σ α} {state reached : σ} {problem : ε} :
    rename translate computation state = .error problem reached ↔
      ∃ cause, computation state = .error cause reached ∧
        translate cause = problem := by
  unfold rename
  cases computation state <;> simp [and_comm]

@[simp] theorem attempt_eq_ok_iff {outcome : Except ε α} {state reached : σ}
    {value : α} :
    attempt outcome state = .ok value reached ↔
      outcome = .ok value ∧ state = reached := by
  cases outcome <;> simp [attempt, eq_comm]

@[simp] theorem attempt_eq_error_iff {outcome : Except ε α}
    {state reached : σ} {problem : ε} :
    attempt outcome state = .error problem reached ↔
      outcome = .error problem ∧ state = reached := by
  cases outcome <;> simp [attempt, eq_comm]

theorem onPart_eq_ok_iff {get : σ → τ} {put : σ → τ → σ}
    {computation : EStateM ε τ α} {state reached : σ} {value : α} :
    onPart get put computation state = .ok value reached ↔
      ∃ part, computation (get state) = .ok value part ∧
        put state part = reached := by
  unfold onPart
  cases outcome : computation (get state) with
  | ok other part => simp
  | error problem part => simp

theorem onPart_eq_error_iff {get : σ → τ} {put : σ → τ → σ}
    {computation : EStateM ε τ α} {state reached : σ} {problem : ε} :
    onPart get put computation state = .error problem reached ↔
      ∃ part, computation (get state) = .error problem part ∧
        put state part = reached := by
  unfold onPart
  cases outcome : computation (get state) with
  | ok value part => simp
  | error other part => simp

/-- The state a computation ends in, whether it returns or fails. -/
def final (computation : EStateM ε σ α) (state : σ) : σ :=
  match computation state with
  | .ok _ reached => reached
  | .error _ reached => reached

@[simp] theorem seq_eq_ok_iff {first : EStateM ε σ α} {next : α → EStateM ε σ β}
    {state reached : σ} {result : β} :
    (first >>= next) state = .ok result reached ↔
      ∃ value between, first state = .ok value between ∧
        next value between = .ok result reached := by
  simp only [bind, EStateM.bind]
  cases outcome : first state with
  | ok value between => simp
  | error problem between => simp

@[simp] theorem seq_eq_error_iff {first : EStateM ε σ α} {next : α → EStateM ε σ β}
    {state reached : σ} {problem : ε} :
    (first >>= next) state = .error problem reached ↔
      first state = .error problem reached ∨
        ∃ value between, first state = .ok value between ∧
          next value between = .error problem reached := by
  simp only [bind, EStateM.bind]
  cases outcome : first state with
  | ok value between => simp
  | error other between => simp

theorem seq_of_ok {first : EStateM ε σ α} {next : α → EStateM ε σ β}
    {state between : σ} {value : α} (done : first state = .ok value between) :
    (first >>= next) state = next value between := by
  simp [bind, EStateM.bind, done]

theorem seq_of_error {first : EStateM ε σ α} {next : α → EStateM ε σ β}
    {state between : σ} {problem : ε}
    (failed : first state = .error problem between) :
    (first >>= next) state = .error problem between := by
  simp [bind, EStateM.bind, failed]

theorem attempt_seq_of_ok {outcome : Except ε α} {next : α → EStateM ε σ β}
    {state : σ} {value : α} (done : outcome = .ok value) :
    (attempt outcome >>= next) state = next value state :=
  seq_of_ok (attempt_eq_ok_iff.mpr ⟨done, rfl⟩)

theorem attempt_seq_of_error {outcome : Except ε α} {next : α → EStateM ε σ β}
    {state : σ} {problem : ε} (failed : outcome = .error problem) :
    (attempt outcome >>= next) state = .error problem state :=
  seq_of_error (attempt_eq_error_iff.mpr ⟨failed, rfl⟩)

theorem final_of_ok {computation : EStateM ε σ α} {state reached : σ} {value : α}
    (done : computation state = .ok value reached) :
    final computation state = reached := by
  rw [final, done]

theorem final_of_error {computation : EStateM ε σ α} {state reached : σ}
    {problem : ε} (failed : computation state = .error problem reached) :
    final computation state = reached := by
  rw [final, failed]

theorem final_seq_of_ok {first : EStateM ε σ α} {next : α → EStateM ε σ β}
    {state between : σ} {value : α} (done : first state = .ok value between) :
    final (first >>= next) state = final (next value) between := by
  rw [final, seq_of_ok done, final]

theorem final_seq_of_error {first : EStateM ε σ α} {next : α → EStateM ε σ β}
    {state between : σ} {problem : ε}
    (failed : first state = .error problem between) :
    final (first >>= next) state = between := by
  rw [final, seq_of_error failed]

theorem final_get_seq {next : σ → EStateM ε σ β} {state : σ} :
    final ((getThe σ : EStateM ε σ σ) >>= next) state = final (next state) state :=
  final_seq_of_ok rfl

theorem final_modify_seq {change : σ → σ} {next : PUnit → EStateM ε σ β} {state : σ} :
    final ((modify change : EStateM ε σ PUnit) >>= next) state =
      final (next PUnit.unit) (change state) :=
  final_seq_of_ok rfl

theorem final_onPart {get : σ → τ} {put : σ → τ → σ}
    {computation : EStateM ε τ α} {state : σ} :
    final (onPart get put computation) state =
      put state (final computation (get state)) := by
  unfold final onPart
  cases computation (get state) <;> rfl

/-- What holds at the end of a sequence: of its first part when that fails, and
of the rest otherwise. -/
theorem final_seq {first : EStateM ε σ α} {next : α → EStateM ε σ β} {state : σ}
    {property : σ → Prop}
    (failed : ∀ problem reached, first state = .error problem reached → property reached)
    (done : ∀ value between, first state = .ok value between →
      property (final (next value) between)) :
    property (final (first >>= next) state) := by
  cases outcome : first state with
  | ok value between =>
      rw [final_seq_of_ok outcome]
      exact done value between outcome
  | error problem reached =>
      rw [final_seq_of_error outcome]
      exact failed problem reached outcome

/-! ## Computations that only read -/

/-- A computation that returns has left the state alone. -/
def Reads (computation : EStateM ε σ α) : Prop :=
  ∀ state value reached, computation state = .ok value reached →
    state = reached

theorem Reads.bind {first : EStateM ε σ α} {next : α → EStateM ε σ β}
    (firstReads : Reads first) (nextReads : ∀ value, Reads (next value)) :
    Reads (first >>= next) := by
  intro state result reached done
  rw [seq_eq_ok_iff] at done
  obtain ⟨value, between, done, later⟩ := done
  rw [firstReads state value between done]
  exact nextReads value between result reached later

/-- A walk with a body that only reads returns what the body returns for each
item. -/
theorem mapM_eq_ok_iff {ι : Type u} {items : List ι} {body : ι → EStateM ε σ α}
    (reads : ∀ item ∈ items, Reads (body item)) {state reached : σ}
    {values : List α} :
    items.mapM body state = .ok values reached ↔
      state = reached ∧
        List.Forall₂ (fun item value => body item state = .ok value state)
          items values := by
  induction items generalizing values with
  | nil =>
      simp only [List.mapM_nil, return_eq_ok_iff, List.forall₂_nil_left_iff]
      constructor
      · rintro ⟨rfl, rfl⟩
        exact ⟨rfl, rfl⟩
      · rintro ⟨rfl, rfl⟩
        exact ⟨rfl, rfl⟩
  | cons item rest induction =>
      have later : ∀ values, rest.mapM body state = .ok values reached ↔
          state = reached ∧ List.Forall₂
            (fun item value => body item state = .ok value state) rest values :=
        fun _ => induction
          (fun item member => reads item (List.mem_cons_of_mem _ member))
      simp only [List.mapM_cons, seq_eq_ok_iff, return_eq_ok_iff]
      constructor
      · rintro ⟨value, between, first, others, between', walked, rfl, rfl⟩
        have same := reads item List.mem_cons_self state value between first
        subst same
        obtain ⟨rfl, pointwise⟩ := (later others).mp walked
        exact ⟨rfl, .cons first pointwise⟩
      · rintro ⟨rfl, pointwise⟩
        cases pointwise with
        | cons first pointwise =>
            exact ⟨_, state, first, _, state, (later _).mpr ⟨rfl, pointwise⟩,
              rfl, rfl⟩

/-- The values of a walk with a body that only reads. -/
theorem mem_mapM_iff {ι : Type u} {items : List ι} {body : ι → EStateM ε σ α}
    (reads : ∀ item ∈ items, Reads (body item)) {state reached : σ}
    {values : List α} (walked : items.mapM body state = .ok values reached)
    {value : α} :
    value ∈ values ↔ ∃ item ∈ items, body item state = .ok value state := by
  obtain ⟨_, pointwise⟩ := (mapM_eq_ok_iff reads).mp walked
  clear walked reads
  induction pointwise with
  | nil => simp
  | cons first _ induction =>
      rw [List.mem_cons, induction, List.exists_mem_cons_iff, first,
        EStateM.Result.ok.injEq]
      simp [eq_comm]

/-- A walk whose body returns in the same state for every item. -/
theorem mapM_of_ok {ι : Type u} {items : List ι} {body : ι → EStateM ε σ α}
    {value : ι → α} {state : σ}
    (same : ∀ item ∈ items, body item state = .ok (value item) state) :
    items.mapM body state = .ok (items.map value) state := by
  induction items with
  | nil => rfl
  | cons item rest induction =>
      have later := induction
        (fun other member => same other (List.mem_cons_of_mem _ member))
      rw [List.mapM_cons, seq_of_ok (same item List.mem_cons_self),
        seq_of_ok later]
      rfl

theorem Reads.mapM {ι : Type u} {items : List ι} {body : ι → EStateM ε σ α}
    (reads : ∀ item ∈ items, Reads (body item)) : Reads (items.mapM body) := by
  intro state values reached done
  exact ((mapM_eq_ok_iff reads).mp done).1

theorem Reads.forM {ι : Type u} {items : List ι}
    {body : ι → EStateM ε σ PUnit}
    (reads : ∀ item ∈ items, Reads (body item)) : Reads (items.forM body) := by
  induction items with
  | nil =>
      intro state value reached done
      exact (return_eq_ok_iff.mp done).2
  | cons item rest induction =>
      exact Reads.bind (reads item List.mem_cons_self) (fun _ =>
        induction (fun later member => reads later (List.mem_cons_of_mem _ member)))

/-- A loop over a body that only reads runs the body in one state. -/
theorem forM_eq_ok_iff {ι : Type u} {items : List ι}
    {body : ι → EStateM ε σ PUnit} (reads : ∀ item ∈ items, Reads (body item))
    {state reached : σ} {value : PUnit} :
    items.forM body state = .ok value reached ↔
      state = reached ∧
        ∀ item ∈ items, body item state = .ok PUnit.unit state := by
  induction items with
  | nil => simp
  | cons item rest induction =>
      have later := induction
        (fun item member => reads item (List.mem_cons_of_mem _ member))
      change (body item >>= fun _ => rest.forM body) state = _ ↔ _
      rw [seq_eq_ok_iff]
      constructor
      · rintro ⟨_, between, first, others⟩
        have same := reads item List.mem_cons_self state _ between first
        subst same
        obtain ⟨rfl, pointwise⟩ := later.mp others
        exact ⟨rfl, List.forall_mem_cons.mpr ⟨first, pointwise⟩⟩
      · rintro ⟨rfl, pointwise⟩
        obtain ⟨first, pointwise⟩ := List.forall_mem_cons.mp pointwise
        exact ⟨_, state, first, later.mpr ⟨rfl, pointwise⟩⟩

/-- A loop over a body that only reads fails where its body fails. -/
theorem forM_eq_error {ι : Type u} {items : List ι}
    {body : ι → EStateM ε σ PUnit} (reads : ∀ item ∈ items, Reads (body item))
    {state reached : σ} {problem : ε}
    (failed : items.forM body state = .error problem reached) :
    ∃ item ∈ items, body item state = .error problem reached := by
  induction items with
  | nil => simp at failed
  | cons item rest induction =>
      change (body item >>= fun _ => rest.forM body) state = _ at failed
      rw [seq_eq_error_iff] at failed
      rcases failed with failed | ⟨_, between, first, failed⟩
      · exact ⟨item, List.mem_cons_self, failed⟩
      · have same := reads item List.mem_cons_self state _ between first
        subst same
        obtain ⟨later, member, failed⟩ := induction
          (fun item member => reads item (List.mem_cons_of_mem _ member)) failed
        exact ⟨later, List.mem_cons_of_mem _ member, failed⟩

/-! ## Loops -/

/-- A loop whose body always goes on, from what holds after the items before
it to what holds after its item, comes to its end. -/
theorem forM_total {ι : Type u} {items : List ι} {body : ι → EStateM ε σ PUnit}
    (holds : List ι → σ → Prop)
    (step : ∀ front item back state, items = front ++ item :: back →
      holds front state →
      ∃ reached, body item state = .ok PUnit.unit reached ∧
        holds (front ++ [item]) reached)
    {state : σ} (initial : holds [] state) :
    ∃ reached, items.forM body state = .ok PUnit.unit reached ∧
      holds items reached := by
  suffices general : ∀ back front state, items = front ++ back →
      holds front state →
      ∃ reached, back.forM body state = .ok PUnit.unit reached ∧
        holds items reached from general items [] state rfl initial
  intro back
  induction back with
  | nil =>
      intro front state split before
      rw [List.append_nil] at split
      exact ⟨state, rfl, split ▸ before⟩
  | cons item rest induction =>
      intro front state split before
      obtain ⟨between, done, after⟩ := step front item rest state split before
      obtain ⟨reached, later, final⟩ := induction (front ++ [item]) between
        (by rw [split, List.append_assoc]; rfl) after
      refine ⟨reached, ?_, final⟩
      change (body item >>= fun _ => rest.forM body) state = _
      rw [seq_of_ok done, later]

/-- What holds after the items before a step and is carried over the step
holds at the end of a loop that returns. -/
theorem forM_trace {ι : Type u} {items : List ι} {body : ι → EStateM ε σ PUnit}
    (holds : List ι → σ → Prop)
    (step : ∀ front item back state reached value, items = front ++ item :: back →
      holds front state → body item state = .ok value reached →
      holds (front ++ [item]) reached)
    {state reached : σ} {value : PUnit} (initial : holds [] state)
    (done : items.forM body state = .ok value reached) : holds items reached := by
  suffices general : ∀ back front state, items = front ++ back →
      holds front state → back.forM body state = .ok value reached →
      holds items reached from general items [] state rfl initial done
  intro back
  induction back with
  | nil =>
      intro front state split before done
      rw [List.append_nil] at split
      have same : state = reached := (return_eq_ok_iff.mp done).2
      rw [← same, split]
      exact before
  | cons item rest induction =>
      intro front state split before done
      change (body item >>= fun _ => rest.forM body) state = _ at done
      rw [seq_eq_ok_iff] at done
      obtain ⟨_, between, first, later⟩ := done
      exact induction (front ++ [item]) between
        (by rw [split, List.append_assoc]; rfl)
        (step front item rest state between _ split before first) later

/-- A loop that fails does so at one of its items, in a state in which what is
carried over the steps holds. -/
theorem forM_trace_error {ι : Type u} {items : List ι} {body : ι → EStateM ε σ PUnit}
    (holds : List ι → σ → Prop)
    (step : ∀ front item back state reached value, items = front ++ item :: back →
      holds front state → body item state = .ok value reached →
      holds (front ++ [item]) reached)
    {state reached : σ} {problem : ε} (initial : holds [] state)
    (failed : items.forM body state = .error problem reached) :
    ∃ front item back between, items = front ++ item :: back ∧ holds front between ∧
      body item between = .error problem reached := by
  suffices general : ∀ back front state, items = front ++ back →
      holds front state → back.forM body state = .error problem reached →
      ∃ front item back between, items = front ++ item :: back ∧ holds front between ∧
        body item between = .error problem reached from
    general items [] state rfl initial failed
  intro back
  induction back with
  | nil =>
      intro front state _ _ failed
      cases failed
  | cons item rest induction =>
      intro front state split before failed
      change (body item >>= fun _ => rest.forM body) state = _ at failed
      rw [seq_eq_error_iff] at failed
      rcases failed with failed | ⟨_, between, first, later⟩
      · exact ⟨front, item, rest, state, split, before, failed⟩
      · exact induction (front ++ [item]) between
          (by rw [split, List.append_assoc]; rfl)
          (step front item rest state between _ split before first) later

/-! ## Which errors a computation raises -/

/-- Every error of a computation is of the given kind. -/
def RaisesOnly (kind : ε → Prop) (computation : EStateM ε σ α) : Prop :=
  ∀ state problem reached,
    computation state = .error problem reached → kind problem

namespace RaisesOnly

variable {kind : ε → Prop}

theorem pure (value : α) :
    RaisesOnly kind (Pure.pure value : EStateM ε σ α) := by
  intro state problem reached failed
  simp at failed

theorem get : RaisesOnly kind (getThe σ : EStateM ε σ σ) := by
  intro state problem reached failed
  cases failed

theorem modify (change : σ → σ) :
    RaisesOnly kind (modify change : EStateM ε σ PUnit) := by
  intro state problem reached failed
  simp at failed

theorem throw {problem : ε} (holds : kind problem) :
    RaisesOnly kind (MonadExcept.throw problem : EStateM ε σ α) := by
  intro state other reached failed
  cases failed
  exact holds

theorem bind {first : EStateM ε σ α} {next : α → EStateM ε σ β}
    (firstRaises : RaisesOnly kind first)
    (nextRaises : ∀ value, RaisesOnly kind (next value)) :
    RaisesOnly kind (first >>= next) := by
  intro state problem reached failed
  rw [seq_eq_error_iff] at failed
  rcases failed with failed | ⟨value, between, _, failed⟩
  · exact firstRaises state problem reached failed
  · exact nextRaises value between problem reached failed

theorem attempt {outcome : Except ε α}
    (raises : Fallible.RaisesOnly kind outcome) :
    RaisesOnly kind (attempt outcome : EStateM ε σ α) := by
  intro state problem reached failed
  rw [attempt_eq_error_iff] at failed
  exact raises problem failed.1

theorem query {read : σ → Except ε α}
    (raises : ∀ state, Fallible.RaisesOnly kind (read state)) :
    RaisesOnly kind (query read) := by
  intro state problem reached failed
  rw [query_eq_error_iff] at failed
  exact raises state problem failed.1

theorem advance {step : σ → Except ε σ}
    (raises : ∀ state, Fallible.RaisesOnly kind (step state)) :
    RaisesOnly kind (advance step) := by
  intro state problem reached failed
  rw [advance_eq_error_iff] at failed
  exact raises state problem failed.1

theorem onPart {get : σ → τ} {put : σ → τ → σ} {computation : EStateM ε τ α}
    (raises : RaisesOnly kind computation) :
    RaisesOnly kind (onPart get put computation) := by
  intro state problem reached failed
  rw [onPart_eq_error_iff] at failed
  obtain ⟨part, failed, _⟩ := failed
  exact raises _ problem part failed

theorem runIf {condition : Prop} [Decidable condition]
    {computation : EStateM ε σ PUnit} (raises : RaisesOnly kind computation) :
    RaisesOnly kind (runIf condition computation) := by
  intro state problem reached failed
  rw [runIf_eq_error_iff] at failed
  exact raises state problem reached failed.2

theorem mapM {ι : Type u} {items : List ι} {body : ι → EStateM ε σ α}
    (raises : ∀ item ∈ items, RaisesOnly kind (body item)) :
    RaisesOnly kind (items.mapM body) := by
  induction items with
  | nil => exact pure _
  | cons item rest induction =>
      rw [List.mapM_cons]
      refine bind (raises item List.mem_cons_self) (fun _ => bind ?_ (fun _ => pure _))
      exact induction (fun later member => raises later (List.mem_cons_of_mem _ member))

end RaisesOnly

/-! ## What a computation keeps -/

/-- A computation keeps a property of the state, also when it fails. -/
def Keeps (property : σ → Prop) (computation : EStateM ε σ α) : Prop :=
  ∀ state, property state → property (final computation state)

namespace Keeps

variable {property : σ → Prop}

theorem pure (value : α) :
    Keeps property (Pure.pure value : EStateM ε σ α) := by
  intro state holds
  exact holds

theorem throw (problem : ε) :
    Keeps property (MonadExcept.throw problem : EStateM ε σ α) := by
  intro state holds
  exact holds

theorem bind {first : EStateM ε σ α} {next : α → EStateM ε σ β}
    (firstKeeps : Keeps property first)
    (nextKeeps : ∀ value, Keeps property (next value)) :
    Keeps property (first >>= next) := by
  intro state holds
  have between := firstKeeps state holds
  unfold final at between ⊢
  simp only [Bind.bind, EStateM.bind]
  cases outcome : first state with
  | ok value reached =>
      rw [outcome] at between
      exact nextKeeps value reached between
  | error problem reached =>
      rw [outcome] at between
      exact between

theorem get : Keeps property (getThe σ : EStateM ε σ σ) := by
  intro state holds
  exact holds

theorem modify {change : σ → σ}
    (changeKeeps : ∀ state, property state → property (change state)) :
    Keeps property (modify change : EStateM ε σ PUnit) :=
  changeKeeps

theorem attempt (outcome : Except ε α) :
    Keeps property (attempt outcome : EStateM ε σ α) := by
  intro state holds
  cases outcome <;> exact holds

theorem query (read : σ → Except ε α) : Keeps property (query read) := by
  intro state holds
  unfold final Stateful.query
  cases read state <;> exact holds

theorem advance {step : σ → Except ε σ}
    (stepKeeps : ∀ state reached, step state = .ok reached →
      property state → property reached) :
    Keeps property (advance step) := by
  intro state holds
  unfold final Stateful.advance
  cases taken : step state with
  | ok reached => exact stepKeeps state reached taken holds
  | error problem => exact holds

theorem onPart {get : σ → τ} {put : σ → τ → σ} {computation : EStateM ε τ α}
    {part : τ → Prop} (computationKeeps : Keeps part computation)
    (into : ∀ state, property state → part (get state))
    (back : ∀ state reached, part reached → property (put state reached)) :
    Keeps property (onPart get put computation) := by
  intro state holds
  have reached := computationKeeps _ (into state holds)
  unfold final at reached ⊢
  unfold Stateful.onPart
  cases outcome : computation (get state) with
  | ok value part =>
      rw [outcome] at reached
      exact back state part reached
  | error problem part =>
      rw [outcome] at reached
      exact back state part reached

theorem rename {translate : ε → ε} {computation : EStateM ε σ α}
    (computationKeeps : Keeps property computation) :
    Keeps property (rename translate computation) := by
  intro state holds
  have reached := computationKeeps state holds
  unfold final at reached ⊢
  unfold Stateful.rename
  cases outcome : computation state with
  | ok value part =>
      rw [outcome] at reached
      exact reached
  | error problem part =>
      rw [outcome] at reached
      exact reached

theorem runIf {condition : Prop} [Decidable condition]
    {computation : EStateM ε σ PUnit}
    (computationKeeps : condition → Keeps property computation) :
    Keeps property (runIf condition computation) := by
  unfold Stateful.runIf
  split
  · rename_i holds
    exact computationKeeps holds
  · exact pure _

theorem mapM {ι : Type u} {items : List ι} {body : ι → EStateM ε σ α}
    (bodyKeeps : ∀ item ∈ items, Keeps property (body item)) :
    Keeps property (items.mapM body) := by
  induction items with
  | nil => exact pure _
  | cons item rest induction =>
      rw [List.mapM_cons]
      refine bind (bodyKeeps item List.mem_cons_self) (fun _ => bind ?_ (fun _ => pure _))
      exact induction (fun later member =>
        bodyKeeps later (List.mem_cons_of_mem _ member))

/-- What is kept holds in the state of a result. -/
theorem of_ok {computation : EStateM ε σ α}
    (keeps : Keeps property computation) {state reached : σ} {value : α}
    (done : computation state = .ok value reached) (holds : property state) :
    property reached := by
  have result := keeps state holds
  unfold final at result
  rw [done] at result
  exact result

theorem of_error {computation : EStateM ε σ α}
    (keeps : Keeps property computation) {state reached : σ} {problem : ε}
    (failed : computation state = .error problem reached)
    (holds : property state) : property reached := by
  have result := keeps state holds
  unfold final at result
  rw [failed] at result
  exact result

/-- A loop keeps what its body keeps. -/
theorem forM {ι : Type u} {items : List ι} {body : ι → EStateM ε σ PUnit}
    (bodyKeeps : ∀ item ∈ items, Keeps property (body item)) :
    Keeps property (items.forM body) := by
  induction items with
  | nil => exact pure _
  | cons item rest induction =>
      exact bind (bodyKeeps item List.mem_cons_self) (fun _ =>
        induction (fun later member =>
          bodyKeeps later (List.mem_cons_of_mem _ member)))

end Keeps

end Stateful

/-! ## Runs -/

/-- A run: a list of labels taken one after the other. -/
inductive Run {ι σ : Type u} (step : ι → σ → σ → Prop) :
    σ → List ι → σ → Prop where
  | nil (state : σ) : Run step state [] state
  | cons {label : ι} {labels : List ι} {state between reached : σ} :
      step label state between →
      Run step between labels reached →
      Run step state (label :: labels) reached

namespace Run

variable {ι σ : Type u} {step : ι → σ → σ → Prop} {property : σ → Prop}

/-- What every step keeps holds at the end of every run. -/
theorem invariant
    (stepKeeps : ∀ label state reached, step label state reached →
      property state → property reached)
    {state reached : σ} {labels : List ι}
    (run : Run step state labels reached) (initial : property state) :
    property reached := by
  induction run with
  | nil => exact initial
  | cons taken _ induction =>
      exact induction (stepKeeps _ _ _ taken initial)

theorem append {state between reached : σ} {front back : List ι}
    (first : Run step state front between)
    (second : Run step between back reached) :
    Run step state (front ++ back) reached := by
  induction first with
  | nil => exact second
  | cons taken _ induction => exact .cons taken (induction second)

end Run
