import JumpscaleX.FileLock

/-!
# Exclusion between file locks

A lock file stands for its holder as long as nobody removes the file of another
object, trusts a descriptor that it remembers from an earlier time, or comes too
late for the creation.
-/

namespace JumpscaleX.FileLocks

open Runs Stateful

/-- The action is a step of `release`, by a call or by the destructor. -/
def Action.Frees {L P : Type} : Action L P → L → Prop
  | .release lock _, other => lock = other
  | .remove lock, other => lock = other
  | _, _ => False

/-- The action is a step of `acquire`. -/
def Action.Acquires {L P : Type} : Action L P → L → Prop
  | .acquire lock _, other => lock = other
  | .test lock _, other => lock = other
  | .create lock _, other => lock = other
  | _, _ => False

namespace Host

variable {L P : Type} [DecidableEq L] [DecidableEq P] {processOf : L → P} {s : Host L P}

@[simp] theorem locks_set (lock : L) (value : FileLock) :
    (s.set lock value).locks = Function.update s.locks lock value := rfl

@[simp] theorem file_set (lock : L) (value : FileLock) :
    (s.set lock value).file = s.file := rfl

@[simp] theorem files_set (lock : L) (value : FileLock) :
    (s.set lock value).files = s.files := rfl

@[simp] theorem locks_setFd (process : P) (fd : Nat) (descriptor : Descriptor) :
    (s.setFd process fd descriptor).locks = s.locks := rfl

@[simp] theorem file_setFd (process : P) (fd : Nat) (descriptor : Descriptor) :
    (s.setFd process fd descriptor).file = s.file := rfl

theorem files_setFd_self (process : P) (fd : Nat) (descriptor : Descriptor) :
    (s.setFd process fd descriptor).files process fd = descriptor := by
  simp [setFd]

theorem files_setFd_of_ne {process other : P} {fd number : Nat} {descriptor : Descriptor}
    (different : process = other → fd ≠ number) :
    (s.setFd process fd descriptor).files other number = s.files other number := by
  by_cases same : process = other
  · subst same
    simp [setFd, Function.update_of_ne (Ne.symm (different rfl))]
  · simp [setFd, Function.update_of_ne (Ne.symm same)]

/-- The object holds the lock. -/
def Holds (s : Host L P) (lock : L) : Prop := (s.locks lock).held = true

instance (lock : L) : Decidable (s.Holds lock) :=
  inferInstanceAs (Decidable (_ = true))

/-- The file is there for the one object that holds the lock, and for nobody
else; the holder's descriptor is open until it closes it. -/
structure Exclusive (processOf : L → P) (s : Host L P) : Prop where
  only : ∀ lock other, s.Holds lock → s.Holds other → lock = other
  present : s.file = true ↔ ∃ lock, s.Holds lock
  placed : ∀ lock, s.Holds lock →
    (s.locks lock).phase ≠ .creating ∧ (s.locks lock).phase ≠ .gone
  owned : ∀ lock, s.Holds lock → ∃ fd, (s.locks lock).fd = some fd ∧
    ((∀ last, (s.locks lock).phase ≠ .removing last) →
      s.files (processOf lock) fd = .lockFile)

/-- What goes wrong nowhere: nobody with an old descriptor finds the file of a holder,
nobody creates the file behind the back of a holder, and whoever releases without
holding closes no holder's descriptor and finds no file to remove. -/
def Sound (processOf : L → P) (s : Host L P) : Action L P → Prop
  | .test lock _ => (∃ timed, (s.locks lock).phase = .testing timed) → s.locked = true →
      (s.locks lock).hasFd = true → s.Holds lock
  | .create lock _ => (s.locks lock).phase = .creating → s.file = false
  | .release lock _ => (s.locks lock).phase = .idle → ¬ s.Holds lock →
      ∀ other, s.Holds other → processOf other = processOf lock →
        ∀ fd, (s.locks lock).fd = some fd → fd ≠ 0 →
          s.files (processOf lock) fd = .lockFile → (s.locks other).fd ≠ some fd
  | .remove lock => (∃ last, (s.locks lock).phase = .removing last) → ¬ s.Holds lock →
      s.file = false
  | _ => True

/-- Alone, an idle object acquires the lock. -/
def Acquirable (processOf : L → P) (s : Host L P) : Prop :=
  ∀ lock timed elapsed fd, (s.locks lock).phase = .idle →
    s.files (processOf lock) fd = .closed →
    (run (step processOf) s
      [.acquire lock timed, .test lock elapsed, .create lock fd]).Holds lock

/-- What a step is to do: two objects never hold the lock, a release without the lock
changes nothing for the other objects, behind a release the lock can be acquired, and
`acquire` ends with the lock or with a `FileLockException`. -/
structure AsClaimed (processOf : L → P) (s : Host L P) (action : Action L P) : Prop where
  exclusive : ∀ lock other, (s.step processOf action).Holds lock →
    (s.step processOf action).Holds other → lock = other
  harmless : ∀ lock, action.Frees lock → ¬ s.Holds lock →
    (s.step processOf action).file = s.file ∧
    ∀ other, other ≠ lock →
      (s.step processOf action).locks other = s.locks other ∧
      (s.Holds other → ∀ fd, (s.locks other).fd = some fd →
        s.files (processOf other) fd = .lockFile →
        (s.step processOf action).files (processOf other) fd = .lockFile)
  again : ∀ lock last, action = .remove lock → (s.locks lock).phase = .removing last →
    (s.step processOf action).Acquirable processOf
  acquired : ∀ lock, action.Acquires lock → ∀ ending,
    s.ending processOf action = some ending →
    (ending = .returned ∧ (s.step processOf action).Holds lock ∧
      (s.step processOf action).file = true) ∨
    ending = .raised .fileLockException

/-- An object changes by itself: the lock passes as its `held` does. -/
theorem holds_set_iff {lock other : L} {value : FileLock} :
    (s.set lock value).Holds other ↔
      if other = lock then value.held = true else s.Holds other := by
  by_cases same : other = lock
  · subst same
    simp [Holds]
  · simp [Holds, same]

theorem start_exclusive (files : P → Nat → Descriptor) :
    (start files : Host L P).Exclusive processOf where
  only := by simp [Holds, start, FileLock.init]
  present := by simp [Holds, start, FileLock.init]
  placed := by simp [Holds, start, FileLock.init]
  owned := by simp [Holds, start, FileLock.init]

/-- Moving on within a method keeps the lock where it is. -/
theorem Exclusive.set_phase (exclusive : s.Exclusive processOf) (lock : L) (phase : Phase)
    (placed : s.Holds lock → phase ≠ .creating ∧ phase ≠ .gone)
    (owned : s.Holds lock → (∀ last, phase ≠ .removing last) →
      ∀ last, (s.locks lock).phase ≠ .removing last) :
    (s.set lock { s.locks lock with phase := phase }).Exclusive processOf := by
  have same : ∀ other, (s.set lock { s.locks lock with phase := phase }).Holds other ↔
      s.Holds other := by
    intro other
    rw [holds_set_iff]
    split
    · rename_i equal
      rw [equal, Holds]
    · rfl
  constructor
  case only =>
    intro first second
    rw [same, same]
    exact exclusive.only first second
  case present =>
    simp only [file_set, same]
    exact exclusive.present
  case placed =>
    intro other held
    rw [same] at held
    by_cases equal : other = lock
    · subst equal
      simpa using placed held
    · simpa [equal] using exclusive.placed other held
  case owned =>
    intro other held
    rw [same] at held
    obtain ⟨fd, remembered, opened⟩ := exclusive.owned other held
    refine ⟨fd, ?_, ?_⟩
    · by_cases equal : other = lock
      · subst equal
        simpa using remembered
      · simpa [equal] using remembered
    · intro still
      by_cases equal : other = lock
      · subst equal
        apply opened
        apply owned held
        simpa using still
      · apply opened
        simpa [equal] using still

/-- A descriptor that no holder counts on may be opened and closed. -/
theorem Exclusive.setFd (exclusive : s.Exclusive processOf) (process : P) (fd : Nat)
    (descriptor : Descriptor)
    (unused : ∀ lock, s.Holds lock → processOf lock = process →
      (∀ last, (s.locks lock).phase ≠ .removing last) → (s.locks lock).fd ≠ some fd) :
    (s.setFd process fd descriptor).Exclusive processOf where
  only := exclusive.only
  present := exclusive.present
  placed := exclusive.placed
  owned := by
    intro lock held
    obtain ⟨number, remembered, opened⟩ := exclusive.owned lock held
    refine ⟨number, remembered, ?_⟩
    intro still
    rw [files_setFd_of_ne]
    · exact opened still
    · intro same equal
      apply unused lock held same.symm still
      rw [remembered, equal]

/-- Descriptors that are no lock files are of no concern. -/
theorem Exclusive.setFd_of_ne (exclusive : s.Exclusive processOf) {process : P} {fd : Nat}
    {descriptor : Descriptor} (different : s.files process fd ≠ .lockFile) :
    (s.setFd process fd descriptor).Exclusive processOf := by
  apply exclusive.setFd
  intro lock held same still remembered
  obtain ⟨number, found, opened⟩ := exclusive.owned lock held
  cases remembered.symm.trans found
  apply different
  rw [← same]
  exact opened still

theorem Exclusive.acquire (exclusive : s.Exclusive processOf) (lock : L) (timed : Bool) :
    (s.acquire lock timed).1.Exclusive processOf := by
  unfold Host.acquire
  split
  · rename_i idle
    apply exclusive.set_phase
    · intro _
      simp
    · intro _ _
      simp [idle]
  · exact exclusive

theorem Exclusive.test (exclusive : s.Exclusive processOf) {lock : L} {elapsed : Bool}
    (sound : s.Sound processOf (.test lock elapsed)) :
    (s.test lock elapsed).1.Exclusive processOf := by
  unfold Host.test
  split
  case h_1 timed testing =>
    split
    · rename_i locked
      split
      · rename_i remembered
        have held : s.Holds lock := sound ⟨timed, testing⟩ locked remembered
        have kept := exclusive.set_phase lock .idle
          (by simp) (by simp [testing])
        have unchanged : (⟨(s.locks lock).fd, .idle, true⟩ : FileLock) =
            ⟨(s.locks lock).fd, .idle, (s.locks lock).held⟩ := by
          rw [held]
        simpa only [unchanged] using kept
      · split
        · apply exclusive.set_phase
          · simp
          · simp [testing]
        · exact exclusive
    · rename_i absent
      have nobody : ¬ s.Holds lock := by
        intro held
        exact absent (exclusive.present.mpr ⟨lock, held⟩)
      apply exclusive.set_phase
      · intro held
        exact absurd held nobody
      · intro held
        exact absurd held nobody
  case h_2 => exact exclusive

theorem Exclusive.create (exclusive : s.Exclusive processOf) {lock : L} {fd : Nat}
    (sound : s.Sound processOf (.create lock fd)) :
    (s.create processOf lock fd).1.Exclusive processOf := by
  unfold Host.create
  split
  case h_1 creating =>
    have absent : s.file = false := sound creating
    have nobody : ∀ other, ¬ s.Holds other := by
      intro other held
      have := exclusive.present.mpr ⟨other, held⟩
      simp [absent] at this
    split
    · rename_i present
      simp [absent] at present
    · split
      · have holds : ∀ other, (({ s with file := true } : Host L P).set lock
            ⟨some fd, .idle, true⟩ |>.setFd (processOf lock) fd .lockFile).Holds other ↔
              other = lock := by
          intro other
          have := nobody other
          by_cases same : other = lock
          · subst same
            simp [Holds]
          · simpa [Holds, same] using this
        constructor
        case only =>
          intro first second held also
          rw [holds] at held also
          rw [held, also]
        case present => simp [holds]
        case placed =>
          intro other held
          rw [holds] at held
          subst held
          simp
        case owned =>
          intro other held
          rw [holds] at held
          subst held
          refine ⟨fd, by simp, ?_⟩
          intro _
          exact files_setFd_self ..
      · exact exclusive
  case h_2 => exact exclusive

theorem Exclusive.remove (exclusive : s.Exclusive processOf) {lock : L}
    (sound : s.Sound processOf (.remove lock)) :
    (s.remove lock).1.Exclusive processOf := by
  unfold Host.remove
  split
  case h_1 last removing =>
    have nobody : ∀ other, ¬ (({ s with file := false } : Host L P).set lock
        { s.locks lock with phase := if last then .gone else .idle, held := false }).Holds
          other := by
      intro other
      by_cases same : other = lock
      · subst same
        simp [Holds]
      · intro held
        have before : s.Holds other := by simpa [Holds, same] using held
        have notHeld : ¬ s.Holds lock := by
          intro also
          exact same (exclusive.only other lock before also)
        have absent := sound ⟨last, removing⟩ notHeld
        have := exclusive.present.mpr ⟨other, before⟩
        simp [absent] at this
    constructor
    case only =>
      intro first second held
      exact absurd held (nobody first)
    case present => simpa using nobody
    case placed =>
      intro other held
      exact absurd held (nobody other)
    case owned =>
      intro other held
      exact absurd held (nobody other)
  case h_2 => exact exclusive

/-- A descriptor that somebody remembers is closed, unless it was closed before. -/
theorem closeFd_cases (processOf : L → P) (s : Host L P) (lock : L) :
    (s.closeFd processOf lock = some s ∧ (s.locks lock).fd = none) ∨
    (∃ fd, (s.locks lock).fd = some fd ∧ s.files (processOf lock) fd = .closed ∧
      s.closeFd processOf lock = none) ∨
    (∃ fd, (s.locks lock).fd = some fd ∧ s.files (processOf lock) fd ≠ .closed ∧
      s.closeFd processOf lock = some (s.setFd (processOf lock) fd .closed)) := by
  cases remembered : (s.locks lock).fd with
  | none => exact Or.inl ⟨by simp [closeFd, remembered], rfl⟩
  | some fd =>
      by_cases closed : s.files (processOf lock) fd = .closed
      · exact Or.inr (Or.inl ⟨fd, rfl, closed, by simp [closeFd, remembered, closed]⟩)
      · exact Or.inr (Or.inr ⟨fd, rfl, closed, by simp [closeFd, remembered, closed]⟩)

/-- The steps of `release`: on to the removal of the file with the descriptor open or
closed, or out, when the descriptor was closed before. -/
theorem release_cases (processOf : L → P) {lock : L} (last : Bool) (idle : (s.locks lock).phase = .idle) :
    (s.release processOf lock last =
        (s.set lock { s.locks lock with phase := .removing last }, none) ∧
      ((s.locks lock).hasFd = false ∨ s.file = false)) ∨
    (∃ fd, (s.locks lock).fd = some fd ∧ fd ≠ 0 ∧ s.file = true ∧
      s.files (processOf lock) fd ≠ .closed ∧
      s.release processOf lock last =
        ((s.setFd (processOf lock) fd .closed).set lock
          { s.locks lock with phase := .removing last }, none)) ∨
    (∃ fd, (s.locks lock).fd = some fd ∧ fd ≠ 0 ∧ s.file = true ∧
      s.files (processOf lock) fd = .closed ∧
      (s.release processOf lock last).1 =
        s.set lock { s.locks lock with
          phase := if last then .gone else .idle
          held := (s.locks lock).held && !last }) := by
  by_cases closing : ((s.locks lock).hasFd && s.locked) = true
  · obtain ⟨hasFd, locked⟩ := Bool.and_eq_true_iff.mp closing
    have file : s.file = true := locked
    rcases closeFd_cases processOf s lock with
      ⟨_, none⟩ | ⟨fd, remembered, closed, result⟩ | ⟨fd, remembered, opened, result⟩
    · simp [FileLock.hasFd, none] at hasFd
    · refine Or.inr (Or.inr ⟨fd, remembered, ?_, file, closed, ?_⟩)
      · simpa [FileLock.hasFd, remembered] using hasFd
      · simp only [Host.release, idle, closing, result, if_true]
    · refine Or.inr (Or.inl ⟨fd, remembered, ?_, file, opened, ?_⟩)
      · simpa [FileLock.hasFd, remembered] using hasFd
      · simp only [Host.release, idle, closing, result, if_true]
  · refine Or.inl ⟨?_, ?_⟩
    · simp only [Host.release, idle]
      rw [if_neg closing]
    · simpa [locked, Bool.and_eq_true_iff, imp_iff_not_or] using closing

theorem release_of_busy {lock : L} (last : Bool) (busy : (s.locks lock).phase ≠ .idle) :
    s.release processOf lock last = (s, none) := by
  unfold Host.release
  split
  · contradiction
  · rfl

theorem Exclusive.release (exclusive : s.Exclusive processOf) {lock : L} {last : Bool}
    (sound : s.Sound processOf (.release lock last)) :
    (s.release processOf lock last).1.Exclusive processOf := by
  by_cases idle : (s.locks lock).phase = .idle
  · rcases release_cases processOf last idle with
      ⟨result, _⟩ | ⟨fd, remembered, nonzero, _, opened, result⟩ |
      ⟨fd, remembered, _, _, closed, result⟩
    · rw [result]
      apply exclusive.set_phase
      · simp
      · simp
    · rw [result]
      -- first the phase, then the descriptor that nobody counts on any more
      have moved := exclusive.set_phase lock (.removing last)
        (by simp) (by simp)
      refine moved.setFd (processOf lock) fd .closed ?_
      intro other held same still also
      by_cases equal : other = lock
      · subst equal
        simp at still
      · have before : s.Holds other := by simpa [Holds, equal] using held
        rw [locks_set, Function.update_of_ne equal] at still also
        have notHeld : ¬ s.Holds lock := by
          intro holds
          exact equal (exclusive.only other lock before holds)
        obtain ⟨number, found, lockFile⟩ := exclusive.owned other before
        cases also.symm.trans found
        refine sound idle notHeld other before same fd remembered nonzero ?_ also
        rw [← same]
        exact lockFile still
    · rw [result]
      have notHeld : ¬ s.Holds lock := by
        intro holds
        obtain ⟨number, found, lockFile⟩ := exclusive.owned lock holds
        cases remembered.symm.trans found
        have := lockFile (by simp [idle])
        simp [closed] at this
      have free : (s.locks lock).held = false := by simpa [Holds] using notHeld
      have kept := exclusive.set_phase lock (if last then .gone else .idle)
        (fun holds => absurd holds notHeld) (fun holds => absurd holds notHeld)
      simpa [free] using kept
  · rw [release_of_busy last idle]
    exact exclusive

/-- Sound steps keep the exclusion. -/
theorem Exclusive.step (exclusive : s.Exclusive processOf) {action : Action L P}
    (sound : s.Sound processOf action) : (s.step processOf action).Exclusive processOf := by
  cases action with
  | acquire lock timed => exact exclusive.acquire lock timed
  | test lock elapsed => exact exclusive.test sound
  | create lock fd => exact exclusive.create sound
  | release lock last => exact exclusive.release sound
  | remove lock => exact exclusive.remove sound
  | otherOpens process fd =>
      simp only [Host.step, perform, otherOpens]
      split
      · rename_i closed
        apply exclusive.setFd_of_ne
        simp [closed]
      · exact exclusive
  | otherCloses process fd =>
      simp only [Host.step, perform, otherCloses]
      split
      · rename_i other
        apply exclusive.setFd_of_ne
        simp [other]
      · exact exclusive

/-- Without a lock file, whoever comes next acquires the lock. -/
theorem acquirable_of_absent (absent : s.file = false) : s.Acquirable processOf := by
  intro lock timed elapsed fd idle closed
  simp [step, perform, Host.acquire, idle, Host.test, Host.create, locked, absent, closed,
    Holds]

/-- A release without the lock, as long as it is sound, is not felt by the others. -/
theorem harmless_of_sound (exclusive : s.Exclusive processOf) {action : Action L P}
    (sound : s.Sound processOf action) {lock : L} (frees : action.Frees lock)
    (notHeld : ¬ s.Holds lock) :
    (s.step processOf action).file = s.file ∧
    ∀ other, other ≠ lock →
      (s.step processOf action).locks other = s.locks other ∧
      (s.Holds other → ∀ fd, (s.locks other).fd = some fd →
        s.files (processOf other) fd = .lockFile →
        (s.step processOf action).files (processOf other) fd = .lockFile) := by
  cases action with
  | release freed last =>
      cases frees
      simp only [step, perform]
      by_cases idle : (s.locks lock).phase = .idle
      · rcases release_cases processOf last idle with
          ⟨result, _⟩ | ⟨fd, remembered, nonzero, _, opened, result⟩ |
          ⟨fd, _, _, _, _, result⟩
        · rw [result]
          refine ⟨rfl, ?_⟩
          intro other different
          refine ⟨by simp [different], ?_⟩
          intro _ number _ lockFile
          exact lockFile
        · rw [result]
          refine ⟨rfl, ?_⟩
          intro other different
          refine ⟨by simp [different], ?_⟩
          intro held number found lockFile
          rw [files_set, files_setFd_of_ne]
          · exact lockFile
          · intro same equal
            subst equal
            exact sound idle notHeld other held same.symm fd remembered nonzero
              (same ▸ lockFile) found
        · rw [result]
          refine ⟨rfl, ?_⟩
          intro other different
          refine ⟨by simp [different], ?_⟩
          intro _ number _ lockFile
          exact lockFile
      · rw [release_of_busy last idle]
        exact ⟨rfl, fun other _ => ⟨rfl, fun _ _ _ lockFile => lockFile⟩⟩
  | remove freed =>
      cases frees
      simp only [step, perform, remove]
      split
      case h_1 last removing =>
        have absent := sound ⟨last, removing⟩ notHeld
        refine ⟨by simp [absent], ?_⟩
        intro other different
        refine ⟨by simp [different], ?_⟩
        intro _ _ _ lockFile
        exact lockFile
      case h_2 => exact ⟨rfl, fun other _ => ⟨rfl, fun _ _ _ lockFile => lockFile⟩⟩
  | acquire freed timed => cases frees
  | test freed elapsed => cases frees
  | create freed fd => cases frees
  | otherOpens process fd => cases frees
  | otherCloses process fd => cases frees

/-- `acquire` ends with the lock or with a `FileLockException`. -/
theorem acquired_of_sound {action : Action L P} (sound : s.Sound processOf action)
    {lock : L} (acquires : action.Acquires lock) {ending : Ending}
    (ended : s.ending processOf action = some ending) :
    (ending = .returned ∧ (s.step processOf action).Holds lock ∧
      (s.step processOf action).file = true) ∨
    ending = .raised .fileLockException := by
  cases action with
  | acquire acquiring timed =>
      simp only [Host.ending, perform, Host.acquire] at ended
      split at ended <;> cases ended
  | test acquiring elapsed =>
      cases acquires
      simp only [Host.ending, step, perform, Host.test] at ended ⊢
      split at ended
      case h_1 timed testing =>
        split at ended
        · rename_i present
          split at ended
          · rename_i remembered
            cases ended
            have file : s.file = true := present
            refine Or.inl ⟨rfl, ?_, ?_⟩
            · simp [present, remembered, Holds]
            · simp [present, remembered, file]
          · split at ended
            · cases ended
              exact Or.inr rfl
            · cases ended
        · cases ended
      case h_2 => cases ended
  | create acquiring fd =>
      cases acquires
      simp only [Host.ending, step, perform, Host.create] at ended ⊢
      split at ended
      case h_1 creating =>
        have absent := sound creating
        simp only [absent] at ended ⊢
        split at ended
        · rename_i impossible
          cases impossible
        · split at ended
          · rename_i closed
            cases ended
            refine Or.inl ⟨rfl, ?_, ?_⟩
            · simp [closed, Holds]
            · simp [closed]
          · cases ended
      case h_2 => cases ended
  | release freed last => cases acquires
  | remove freed => cases acquires
  | otherOpens process fd => cases acquires
  | otherCloses process fd => cases acquires

theorem asClaimed_of_sound (exclusive : s.Exclusive processOf) {action : Action L P}
    (sound : s.Sound processOf action) : s.AsClaimed processOf action where
  exclusive := (exclusive.step sound).only
  harmless := fun _ frees notHeld => harmless_of_sound exclusive sound frees notHeld
  again := by
    intro lock last removes removing
    subst removes
    apply acquirable_of_absent
    simp [step, perform, remove, removing]
  acquired := fun _ acquires _ ended => acquired_of_sound sound acquires ended

/-- Each unsound step is one that the exclusion does not survive. -/
theorem sound_of_asClaimed (exclusive : s.Exclusive processOf) {action : Action L P}
    (claimed : s.AsClaimed processOf action) : s.Sound processOf action := by
  cases action with
  | test lock elapsed =>
      rintro ⟨timed, testing⟩ locked remembered
      obtain ⟨holder, held⟩ := exclusive.present.mp locked
      by_cases same : holder = lock
      · exact same ▸ held
      · exfalso
        apply same
        apply claimed.exclusive
        · simpa [step, perform, Host.test, testing, locked, remembered, Holds, same]
            using held
        · simp [step, perform, Host.test, testing, locked, remembered, Holds]
  | create lock fd =>
      intro creating
      by_contra absent
      have present : s.file = true := by simpa using absent
      have ended : s.ending processOf (.create lock fd) = some (.raised .fileExistsError) := by
        simp [Host.ending, perform, Host.create, creating, present]
      rcases claimed.acquired lock rfl _ ended with ⟨returned, _⟩ | raised
      · cases returned
      · cases raised
  | release lock last =>
      intro idle notHeld other held same fd remembered nonzero lockFile also
      have different : other ≠ lock := by
        intro equal
        exact notHeld (equal ▸ held)
      obtain ⟨_, others⟩ := claimed.harmless lock rfl notHeld
      have still := (others other different).2 held fd also (same ▸ lockFile)
      have file : s.file = true := exclusive.present.mpr ⟨other, held⟩
      simp [step, perform, Host.release, idle, FileLock.hasFd, remembered, nonzero, locked,
        file, closeFd, lockFile, same, files_setFd_self] at still
  | remove lock =>
      rintro ⟨last, removing⟩ notHeld
      obtain ⟨unchanged, _⟩ := claimed.harmless lock rfl notHeld
      rw [← unchanged]
      simp [step, perform, Host.remove, removing]
  | acquire lock timed => trivial
  | otherOpens process fd => trivial
  | otherCloses process fd => trivial

/-- In every run, with any number of objects and processes and any interleaving of
their steps: all steps are as claimed exactly when all are sound. -/
theorem exclusion_iff (processOf : L → P) (files : P → Nat → Descriptor)
    (actions : List (Action L P)) :
    Along (AsClaimed processOf) (step processOf) (start files) actions ↔
      Along (Sound processOf) (step processOf) (start files) actions := by
  apply along_iff (Exclusive processOf) (start_exclusive files)
  · intro state action exclusive
    exact ⟨sound_of_asClaimed exclusive, asClaimed_of_sound exclusive⟩
  · intro state action exclusive sound
    exact exclusive.step sound

/-- An object that never got the lock removes the file of the holder when it is
destroyed, and the next one acquires the lock as well. -/
theorem destructor_frees_lock :
    ¬ Along (AsClaimed (fun _ : Nat => ())) (step (fun _ => ()))
      (start (fun _ _ => .closed))
      [.acquire 0 false, .test 0 false, .create 0 3, .release 1 true, .remove 1,
        .acquire 2 false, .test 2 false, .create 2 4] := by
  intro claimed
  have both := claimed.2.2.2.2.2.2.2.1.exclusive 0 2 (by decide) (by decide)
  exact absurd both (by decide)

end Host

end JumpscaleX.FileLocks
