import JumpscaleX.LogHandler

/-!
# Where log messages are

What holds between the counter, the redis hash, the container files and the
processes that log, in every run in which no dump overtakes a message that is
still on its way.
-/

namespace JumpscaleX.Logs

variable {P M : Type}

/-- The messages that a container covers. -/
def segment (logged : List (LogDict M)) (container : Nat) : List (LogDict M) :=
  (logged.drop (1000 * container)).take 1000

/-- A part of a list stays when the list grows at its end. -/
theorem slice_append {α : Type} {items : List α} {start size : Nat}
    (enough : start + size ≤ items.length) (item : α) :
    ((items ++ [item]).drop start).take size = (items.drop start).take size := by
  have long : size ≤ (items.drop start).length := by
    rw [List.length_drop]
    omega
  rw [List.drop_append_of_le_length (by omega), List.take_append_of_le_length long]

theorem segment_append {logged : List (LogDict M)} {container : Nat}
    (enough : 1000 * (container + 1) ≤ logged.length) (logdict : LogDict M) :
    segment (logged ++ [logdict]) container = segment logged container :=
  slice_append (by omega) logdict

theorem segment_getElem? {logged : List (LogDict M)} {container index : Nat}
    (below : index < 1000) :
    (segment logged container)[index]? = logged[1000 * container + index]? := by
  rw [segment, List.getElem?_take_of_lt below, List.getElem?_drop]

namespace Logging

theorem written_eq (s : Logging P M) : s.written = (s.rotated ++ s.containers).length :=
  List.length_append.symm

theorem rest_eq_removing {keys left : List Nat} (at_ : rest (M := M) keys = .removing left) :
    keys = left := by
  rw [rest] at at_
  split at at_
  · cases at_
  · cases at_
    rfl

theorem rest_ne_storing (keys : List Nat) (logdict : LogDict M) :
    rest keys ≠ .storing logdict := by
  rw [rest]
  split <;> simp

theorem rest_ne_reading (keys : List Nat) (latest_id : Nat) (r : List (LogDict M)) :
    rest keys ≠ .reading latest_id r := by
  rw [rest]
  split <;> simp

theorem rest_ne_listing (keys : List Nat) (latest_id : Nat) :
    rest (M := M) keys ≠ .listing latest_id := by
  rw [rest]
  split <;> simp

/-! ## What holds in between -/

/-- A dump reads the container before the last one, from its start, and nothing
that it has read or that it goes up to is on its way. -/
structure Reads (s : Logging P M) (latest_id : Nat) (r : List (LogDict M)) (container : Nat) :
    Prop where
  latest : latest_id = 1000 * (container + 2)
  unwritten : s.written ≤ container
  given : latest_id ≤ s.incr
  short : r.length ≤ 1000
  read : r = (segment s.logged container).take r.length
  passed : ∀ q logdict, s.stage q = .storing logdict →
    logdict.id ≠ latest_id ∧
      ¬ (1000 * container < logdict.id ∧ logdict.id ≤ 1000 * container + r.length)

/-- The messages have the ids from 1 on, in the order in which they got them. -/
def Numbered (s : Logging P M) : Prop :=
  s.logged.map LogDict.id = List.range' 1 s.incr

structure Consistent (s : Logging P M) : Prop where
  numbered : s.Numbered
  filed : ∀ index file, (s.rotated ++ s.containers)[index]? = some file →
    file.stopid = 1000 * (index + 1) ∧ file.logs = segment s.logged index
  enough : 0 < s.written → 1000 * (s.written + 1) ≤ s.incr
  stored : ∀ id logdict, s.data.lookup id = some logdict →
    logdict ∈ s.logged ∧ logdict.id = id
  kept : ∀ logdict ∈ s.logged, 1000 * s.written < logdict.id →
    s.data.lookup logdict.id = some logdict ∨ ∃ p, s.stage p = .storing logdict
  underway : ∀ p logdict, s.stage p = .storing logdict →
    logdict ∈ s.logged ∧ 1000 * s.written < logdict.id ∧
      (0 < s.written → logdict.id ≠ 1000 * (s.written + 1))
  alone : ∀ p q left right, s.stage p = .storing left → s.stage q = .storing right →
    left.id = right.id → p = q
  reading : ∀ p latest_id r, s.stage p = .reading latest_id r →
    ∃ container, s.Reads latest_id r container
  dumpers : ∀ p q latest_id left right, s.stage p = .reading latest_id left →
    s.stage q = .reading latest_id right → p = q
  pending : ∀ container, s.written ≤ container → 1000 * (container + 2) ≤ s.incr →
    ∃ p, (∃ logdict, s.stage p = .storing logdict ∧ logdict.id = 1000 * (container + 2)) ∨
      ∃ r, s.stage p = .reading (1000 * (container + 2)) r
  listing : ∀ p latest_id, s.stage p = .listing latest_id →
    latest_id ≤ 1000 * (s.written + 1)
  removing : ∀ p keys, s.stage p = .removing keys →
    ∀ key ∈ keys, key ≤ 1000 * s.written
  cleaned : ∀ id logdict, s.data.lookup id = some logdict → id ≤ 1000 * s.written →
    ∃ p, (∃ latest_id, s.stage p = .listing latest_id ∧ id ≤ latest_id - 1000) ∨
      ∃ keys, s.stage p = .removing keys ∧ id ∈ keys
  successful : s.failed = []
  newest : 0 < s.written → s.containers ≠ []

theorem init_consistent : (init : Logging P M).Consistent where
  numbered := rfl
  filed := by
    intro index file found
    cases found
  enough := by
    intro some
    exact absurd some (Nat.lt_irrefl 0)
  stored := by
    intro id logdict found
    cases found
  kept := by
    intro logdict member
    cases member
  underway := by
    intro p logdict at_
    cases at_
  alone := by
    intro p q left right at_
    cases at_
  reading := by
    intro p latest_id r at_
    cases at_
  dumpers := by
    intro p q latest_id left right at_
    cases at_
  pending := by
    intro container _ given
    exact absurd given (by simp [init])
  listing := by
    intro p latest_id at_
    cases at_
  removing := by
    intro p keys at_
    cases at_
  cleaned := by
    intro id logdict found
    cases found
  successful := rfl
  newest := by
    intro some
    exact absurd some (Nat.lt_irrefl 0)

section Facts

variable {s : Logging P M}

theorem Numbered.length_logged (numbered : s.Numbered) : s.logged.length = s.incr := by
  have same := congrArg List.length numbered
  rwa [List.length_map, List.length_range'] at same

theorem Numbered.id_of_getElem? (numbered : s.Numbered) {index : Nat}
    {logdict : LogDict M} (found : s.logged[index]? = some logdict) :
    logdict.id = index + 1 := by
  have at_ : (s.logged.map LogDict.id)[index]? = some logdict.id := by
    rw [List.getElem?_map, found]
    rfl
  rw [Numbered] at numbered
  rw [numbered] at at_
  obtain ⟨below, same⟩ := List.getElem?_eq_some_iff.mp at_
  rw [List.getElem_range'] at same
  omega

theorem Numbered.getElem?_of_mem (numbered : s.Numbered) {logdict : LogDict M}
    (member : logdict ∈ s.logged) :
    1 ≤ logdict.id ∧ logdict.id ≤ s.incr ∧ s.logged[logdict.id - 1]? = some logdict := by
  obtain ⟨index, found⟩ := List.mem_iff_getElem?.mp member
  have id := numbered.id_of_getElem? found
  have below : index < s.logged.length := (List.getElem?_eq_some_iff.mp found).1
  rw [numbered.length_logged] at below
  refine ⟨by omega, by omega, ?_⟩
  rw [id, Nat.add_sub_cancel, found]

theorem Numbered.eq_of_id_eq (numbered : s.Numbered) {left right : LogDict M}
    (leftMember : left ∈ s.logged) (rightMember : right ∈ s.logged)
    (same : left.id = right.id) : left = right := by
  obtain ⟨_, _, leftAt⟩ := numbered.getElem?_of_mem leftMember
  obtain ⟨_, _, rightAt⟩ := numbered.getElem?_of_mem rightMember
  rw [same, rightAt] at leftAt
  exact (Option.some.inj leftAt).symm

theorem Numbered.getElem?_isSome (numbered : s.Numbered) (id : Nat) (some : 0 < id)
    (given : id ≤ s.incr) : ∃ logdict ∈ s.logged, logdict.id = id := by
  have below : id - 1 < s.logged.length := by
    rw [numbered.length_logged]
    omega
  refine ⟨s.logged[id - 1], List.getElem_mem below, ?_⟩
  have found : s.logged[id - 1]? = Option.some s.logged[id - 1] := List.getElem?_eq_getElem below
  rw [numbered.id_of_getElem? found]
  omega

end Facts

section Steps

variable [DecidableEq P]

/-! ## Going on -/

theorem goTo_stage (s : Logging P M) (p q : P) (next : Stage M) :
    (s.goTo p next).stage q = if q = p then next else s.stage q := rfl

@[simp] theorem goTo_stage_self (s : Logging P M) (p : P) (next : Stage M) :
    (s.goTo p next).stage p = next := if_pos rfl

theorem goTo_stage_of_ne (s : Logging P M) {p q : P} (other : q ≠ p) (next : Stage M) :
    (s.goTo p next).stage q = s.stage q := if_neg other

theorem goTo_cases {s : Logging P M} {p q : P} {next stage : Stage M}
    (at_ : (s.goTo p next).stage q = stage) :
    q = p ∧ next = stage ∨ q ≠ p ∧ s.stage q = stage := by
  by_cases same : q = p
  · subst same
    exact .inl ⟨rfl, (goTo_stage_self s q next).symm.trans at_⟩
  · exact .inr ⟨same, (goTo_stage_of_ne s same next).symm.trans at_⟩

/-- A stage that differs from the one that `p` leaves stays. -/
theorem goTo_stage_keeps {s : Logging P M} {p q : P} {stage : Stage M}
    (at_ : s.stage q = stage) (different : s.stage p ≠ stage) (next : Stage M) :
    (s.goTo p next).stage q = stage := by
  have other : q ≠ p := by
    intro same
    exact different (same ▸ at_)
  rw [goTo_stage_of_ne s other, at_]

@[simp] theorem goTo_incr (s : Logging P M) (p : P) (next : Stage M) :
    (s.goTo p next).incr = s.incr := rfl

@[simp] theorem goTo_data (s : Logging P M) (p : P) (next : Stage M) :
    (s.goTo p next).data = s.data := rfl

@[simp] theorem goTo_containers (s : Logging P M) (p : P) (next : Stage M) :
    (s.goTo p next).containers = s.containers := rfl

@[simp] theorem goTo_logged (s : Logging P M) (p : P) (next : Stage M) :
    (s.goTo p next).logged = s.logged := rfl

@[simp] theorem goTo_rotated (s : Logging P M) (p : P) (next : Stage M) :
    (s.goTo p next).rotated = s.rotated := rfl

@[simp] theorem goTo_failed (s : Logging P M) (p : P) (next : Stage M) :
    (s.goTo p next).failed = s.failed := rfl

@[simp] theorem goTo_written (s : Logging P M) (p : P) (next : Stage M) :
    (s.goTo p next).written = s.written := rfl

/-! ## Getting an id -/

@[simp] theorem handle_log_incr (s : Logging P M) (p : P) (message : M) (epoch now : Int) :
    (s.handle_log p message epoch now).incr = s.incr + 1 := rfl

@[simp] theorem handle_log_written (s : Logging P M) (p : P) (message : M) (epoch now : Int) :
    (s.handle_log p message epoch now).written = s.written := rfl

theorem handle_log_consistent {s : Logging P M} (consistent : s.Consistent) {p : P}
    (idle : s.stage p = .idle) (message : M) (epoch now : Int) :
    (s.handle_log p message epoch now).Consistent := by
  have length := consistent.numbered.length_logged
  have fresh : ∀ logdict ∈ s.logged, logdict.id ≤ s.incr := by
    intro logdict member
    exact (consistent.numbered.getElem?_of_mem member).2.1
  have room : 1000 * s.written ≤ s.incr := by
    rcases Nat.eq_zero_or_pos s.written with none | some
    · omega
    · have := consistent.enough some
      omega
  have kept : ∀ {q : P} {stage : Stage M}, s.stage q = stage → stage ≠ .idle →
      ∀ next, (s.goTo p next).stage q = stage := by
    intro q stage at_ busy next
    exact goTo_stage_keeps at_ (fun same => busy (same.symm.trans idle)) next
  constructor
  case numbered =>
    have numbered : s.logged.map LogDict.id = List.range' 1 s.incr := consistent.numbered
    simp only [Numbered, handle_log, goTo_logged, goTo_incr, List.map_append, List.map_cons,
      List.map_nil, List.range'_1_concat, numbered, Nat.add_comm]
  case filed =>
    intro index file found
    obtain ⟨stopid, logs⟩ := consistent.filed index file found
    have below : index < s.written := by
      rw [written_eq]
      exact (List.getElem?_eq_some_iff.mp found).1
    have enough := consistent.enough (Nat.zero_lt_of_lt below)
    refine ⟨stopid, logs.trans (segment_append ?_ _).symm⟩
    omega
  case enough =>
    intro some
    have enough := consistent.enough some
    rewrite [handle_log_incr, handle_log_written]
    omega
  case stored =>
    intro id logdict found
    obtain ⟨member, same⟩ := consistent.stored id logdict found
    exact ⟨List.mem_append_left _ member, same⟩
  case kept =>
    intro logdict member unwritten
    rcases List.mem_append.mp member with old | new
    · rcases consistent.kept logdict old unwritten with found | ⟨q, at_⟩
      · exact .inl found
      · exact .inr ⟨q, kept at_ (by simp) _⟩
    · rw [List.mem_singleton.mp new]
      exact .inr ⟨p, goTo_stage_self _ _ _⟩
  case underway =>
    intro q logdict at_
    rcases goTo_cases at_ with ⟨_, same⟩ | ⟨_, at_⟩
    · cases same
      rw [handle_log_written]
      refine ⟨List.mem_append_right _ (List.mem_singleton_self _), ?_, ?_⟩
      · show 1000 * s.written < s.incr + 1
        omega
      · intro some
        have enough := consistent.enough some
        show s.incr + 1 ≠ 1000 * (s.written + 1)
        omega
    · obtain ⟨member, later, other⟩ := consistent.underway q logdict at_
      exact ⟨List.mem_append_left _ member, later, other⟩
  case alone =>
    intro q q' left right leftAt rightAt same
    rcases goTo_cases leftAt with ⟨isP, isLeft⟩ | ⟨_, leftOld⟩
    · rcases goTo_cases rightAt with ⟨isP', isRight⟩ | ⟨_, rightOld⟩
      · rw [isP, isP']
      · have old := fresh right (consistent.underway q' right rightOld).1
        cases isLeft
        change s.incr + 1 = right.id at same
        omega
    · rcases goTo_cases rightAt with ⟨isP', isRight⟩ | ⟨_, rightOld⟩
      · have old := fresh left (consistent.underway q left leftOld).1
        cases isRight
        change left.id = s.incr + 1 at same
        omega
      · exact consistent.alone q q' left right leftOld rightOld same
  case reading =>
    intro q latest_id r at_
    rcases goTo_cases at_ with ⟨_, same⟩ | ⟨_, at_⟩
    · cases same
    · obtain ⟨container, reads⟩ := consistent.reading q latest_id r at_
      have given := reads.given
      have latest := reads.latest
      have later : latest_id ≤ (s.handle_log p message epoch now).incr := by
        rewrite [handle_log_incr]
        omega
      refine ⟨container, latest, reads.unwritten, later, reads.short, ?_, ?_⟩
      · have long : 1000 * (container + 1) ≤ s.logged.length := by omega
        have grown := segment_append long
          ⟨s.incr + 1, if epoch = 0 then now else epoch, message⟩
        change r = (segment (s.logged ++ [_]) container).take r.length
        rw [grown]
        exact reads.read
      · intro q' logdict storing
        rcases goTo_cases storing with ⟨_, same⟩ | ⟨_, storing⟩
        · cases same
          have short := reads.short
          constructor
          · change s.incr + 1 ≠ latest_id
            omega
          · change ¬ (1000 * container < s.incr + 1 ∧ s.incr + 1 ≤ 1000 * container + r.length)
            omega
        · exact reads.passed q' logdict storing
  case dumpers =>
    intro q q' latest_id left right leftAt rightAt
    rcases goTo_cases leftAt with ⟨_, same⟩ | ⟨_, leftAt⟩
    · cases same
    · rcases goTo_cases rightAt with ⟨_, same⟩ | ⟨_, rightAt⟩
      · cases same
      · exact consistent.dumpers q q' latest_id left right leftAt rightAt
  case pending =>
    intro container unwritten given
    by_cases new : 1000 * (container + 2) = s.incr + 1
    · exact ⟨p, .inl ⟨_, goTo_stage_self _ _ _, new.symm⟩⟩
    · have old : 1000 * (container + 2) ≤ s.incr := by
        rewrite [handle_log_incr] at given
        omega
      rcases consistent.pending container unwritten old with ⟨q, ⟨logdict, at_, id⟩ | ⟨r, at_⟩⟩
      · exact ⟨q, .inl ⟨logdict, kept at_ (by simp) _, id⟩⟩
      · exact ⟨q, .inr ⟨r, kept at_ (by simp) _⟩⟩
  case listing =>
    intro q latest_id at_
    rcases goTo_cases at_ with ⟨_, same⟩ | ⟨_, at_⟩
    · cases same
    · exact consistent.listing q latest_id at_
  case removing =>
    intro q keys at_
    rcases goTo_cases at_ with ⟨_, same⟩ | ⟨_, at_⟩
    · cases same
    · exact consistent.removing q keys at_
  case cleaned =>
    intro id logdict found old
    rcases consistent.cleaned id logdict found old with
      ⟨q, ⟨latest_id, at_, covered⟩ | ⟨keys, at_, covered⟩⟩
    · exact ⟨q, .inl ⟨latest_id, kept at_ (by simp) _, covered⟩⟩
    · exact ⟨q, .inr ⟨keys, kept at_ (by simp) _, covered⟩⟩
  case successful => exact consistent.successful
  case newest => exact consistent.newest

/-! ## Storing a message -/

theorem hset_consistent {s : Logging P M} (consistent : s.Consistent) {p : P}
    {logdict : LogDict M} (at_ : s.stage p = .storing logdict) :
    (s.hset p logdict).Consistent := by
  obtain ⟨member, later, notLatest⟩ := consistent.underway p logdict at_
  obtain ⟨_, given, _⟩ := consistent.numbered.getElem?_of_mem member
  have kept : ∀ {q : P} {stage : Stage M}, s.stage q = stage → stage ≠ .storing logdict →
      ∀ next, (s.goTo p next).stage q = stage := by
    intro q stage other busy next
    exact goTo_stage_keeps other (fun same => busy (same.symm.trans at_)) next
  -- nobody stores the next message of `p`
  have storing : ∀ {q : P} {other : LogDict M}, (s.hset p logdict).stage q = .storing other →
      q ≠ p ∧ s.stage q = .storing other := by
    intro q other stores
    rcases goTo_cases stores with ⟨_, same⟩ | old
    · split at same <;> cases same
    · exact old
  have dumping : ∀ {q : P} {latest_id : Nat} {r : List (LogDict M)},
      (s.hset p logdict).stage q = .reading latest_id r →
        q = p ∧ Dumps logdict.id ∧ latest_id = logdict.id ∧ r = [] ∨
          q ≠ p ∧ s.stage q = .reading latest_id r := by
    intro q latest_id r reads
    rcases goTo_cases reads with ⟨isP, same⟩ | old
    · split at same
      · rename_i dumps
        cases same
        exact .inl ⟨isP, dumps, rfl, rfl⟩
      · cases same
    · exact .inr old
  constructor
  case numbered => exact consistent.numbered
  case filed => exact consistent.filed
  case enough => exact consistent.enough
  case stored =>
    intro id other found
    by_cases same : id = logdict.id
    · have stored : (s.data.insert logdict.id logdict).lookup id = some other := found
      rw [same, OrderedMap.lookup_insert_self] at stored
      cases stored
      exact ⟨member, same.symm⟩
    · have stored : (s.data.insert logdict.id logdict).lookup id = some other := found
      rw [OrderedMap.lookup_insert_of_ne _ same] at stored
      exact consistent.stored id other stored
  case kept =>
    intro other inLog unwritten
    by_cases same : other.id = logdict.id
    · left
      have equal := consistent.numbered.eq_of_id_eq inLog member same
      rw [equal]
      exact OrderedMap.lookup_insert_self _ _ _
    · rcases consistent.kept other inLog unwritten with found | ⟨q, stores⟩
      · left
        exact (OrderedMap.lookup_insert_of_ne _ same _).trans found
      · right
        refine ⟨q, kept stores ?_ _⟩
        intro equal
        cases equal
        exact same rfl
  case underway =>
    intro q other stores
    exact consistent.underway q other (storing stores).2
  case alone =>
    intro q q' left right leftStores rightStores same
    exact consistent.alone q q' left right (storing leftStores).2 (storing rightStores).2 same
  case reading =>
    intro q latest_id r reads
    rcases dumping reads with ⟨_, dumps, isLatest, empty⟩ | ⟨_, old⟩
    · have latest : logdict.id = 1000 * (logdict.id / 1000 - 2 + 2) := by
        obtain ⟨two, full⟩ := dumps
        omega
      refine ⟨logdict.id / 1000 - 2, isLatest.trans latest, ?_, ?_, ?_, ?_, ?_⟩
      · show s.written ≤ logdict.id / 1000 - 2
        rcases Nat.eq_zero_or_pos s.written with none | some
        · omega
        · have := notLatest some
          omega
      · rw [isLatest]
        exact given
      · simp [empty]
      · simp [empty]
      · intro q' other stores
        obtain ⟨isOther, old⟩ := storing stores
        constructor
        · intro same
          exact isOther (consistent.alone q' p other logdict old at_ (same.trans isLatest))
        · rw [empty, List.length_nil]
          omega
    · obtain ⟨container, reads⟩ := consistent.reading q latest_id r old
      refine ⟨container, reads.latest, reads.unwritten, reads.given, reads.short, reads.read, ?_⟩
      intro q' other stores
      exact reads.passed q' other (storing stores).2
  case dumpers =>
    -- a dump behind this message had to wait for it
    have waits : ∀ {q : P} {r : List (LogDict M)},
        s.stage q ≠ .reading logdict.id r := by
      intro q r old
      obtain ⟨container, reads⟩ := consistent.reading q logdict.id r old
      exact (reads.passed p logdict at_).1 rfl
    intro q q' latest_id left right leftReads rightReads
    rcases dumping leftReads with ⟨isP, _, isLatest, _⟩ | ⟨_, leftOld⟩
    · rcases dumping rightReads with ⟨isP', _⟩ | ⟨_, rightOld⟩
      · rw [isP, isP']
      · rw [isLatest] at rightOld
        exact absurd rightOld waits
    · rcases dumping rightReads with ⟨_, _, isLatest, _⟩ | ⟨_, rightOld⟩
      · rw [isLatest] at leftOld
        exact absurd leftOld waits
      · exact consistent.dumpers q q' latest_id left right leftOld rightOld
  case pending =>
    intro container unwritten enough
    rcases consistent.pending container unwritten enough with ⟨q, ⟨other, stores, id⟩ | ⟨r, reads⟩⟩
    · by_cases same : q = p
      · subst same
        cases at_.symm.trans stores
        have dumps : Dumps logdict.id := by
          rw [Dumps, id]
          omega
        refine ⟨q, .inr ⟨[], ?_⟩⟩
        rw [← id]
        exact (goTo_stage_self _ q _).trans (if_pos dumps)
      · exact ⟨q, .inl ⟨other, (goTo_stage_of_ne _ same _).trans stores, id⟩⟩
    · exact ⟨q, .inr ⟨r, kept reads (by simp) _⟩⟩
  case listing =>
    intro q latest_id lists
    rcases goTo_cases lists with ⟨_, same⟩ | ⟨_, old⟩
    · split at same <;> cases same
    · exact consistent.listing q latest_id old
  case removing =>
    intro q keys removes
    rcases goTo_cases removes with ⟨_, same⟩ | ⟨_, old⟩
    · split at same <;> cases same
    · exact consistent.removing q keys old
  case cleaned =>
    intro id other found old
    have stored : (s.data.insert logdict.id logdict).lookup id = some other := found
    have different : id ≠ logdict.id := by
      rintro rfl
      have : logdict.id ≤ 1000 * s.written := old
      omega
    rw [OrderedMap.lookup_insert_of_ne _ different] at stored
    rcases consistent.cleaned id other stored old with
      ⟨q, ⟨latest_id, lists, covered⟩ | ⟨keys, removes, covered⟩⟩
    · exact ⟨q, .inl ⟨latest_id, kept lists (by simp) _, covered⟩⟩
    · exact ⟨q, .inr ⟨keys, kept removes (by simp) _, covered⟩⟩
  case successful => exact consistent.successful
  case newest => exact consistent.newest

/-! ## Reading a container -/

/-- A dump whose next message has arrived reads it. -/
theorem redis_get_consistent {s : Logging P M} (consistent : s.Consistent) {p : P}
    {latest_id : Nat} {r : List (LogDict M)} (at_ : s.stage p = .reading latest_id r)
    (more : r.length < 1000)
    (arrived : ∀ q logdict, s.stage q = .storing logdict →
      logdict.id ≠ latest_id - 2000 + 1 + r.length) :
    (s._redis_get p latest_id r).Consistent := by
  obtain ⟨container, reads⟩ := consistent.reading p latest_id r at_
  have latest := reads.latest
  have given := reads.given
  have unwritten := reads.unwritten
  have next : latest_id - 2000 + 1 + r.length = 1000 * container + r.length + 1 := by omega
  obtain ⟨logdict, member, id⟩ := consistent.numbered.getElem?_isSome
    (1000 * container + r.length + 1) (by omega) (by omega)
  have found : s.data.lookup (1000 * container + r.length + 1) = some logdict := by
    rcases consistent.kept logdict member (by omega) with found | ⟨q, stores⟩
    · rw [← id, found]
    · exact absurd (id.trans next.symm) (arrived q logdict stores)
  have step : s._redis_get p latest_id r = s.goTo p (.reading latest_id (r ++ [logdict])) := by
    rw [_redis_get, next, found]
  rw [step]
  have old : ∀ {q : P} {stage : Stage M},
      (s.goTo p (.reading latest_id (r ++ [logdict]))).stage q = stage →
        stage ≠ .reading latest_id (r ++ [logdict]) → q ≠ p ∧ s.stage q = stage := by
    intro q stage now different
    rcases goTo_cases now with ⟨_, same⟩ | before
    · exact absurd same.symm different
    · exact before
  have kept : ∀ {q : P} {stage : Stage M}, s.stage q = stage → stage ≠ .reading latest_id r →
      ∀ next, (s.goTo p next).stage q = stage := by
    intro q stage other busy next
    exact goTo_stage_keeps other (fun same => busy (same.symm.trans at_)) next
  constructor
  case numbered => exact consistent.numbered
  case filed => exact consistent.filed
  case enough => exact consistent.enough
  case stored => exact consistent.stored
  case kept =>
    intro other inLog late
    rcases consistent.kept other inLog late with found | ⟨q, stores⟩
    · exact .inl found
    · exact .inr ⟨q, kept stores (by simp) _⟩
  case underway =>
    intro q other stores
    exact consistent.underway q other (old stores (by simp)).2
  case alone =>
    intro q q' left right leftStores rightStores same
    exact consistent.alone q q' left right (old leftStores (by simp)).2
      (old rightStores (by simp)).2 same
  case reading =>
    intro q latest_id' r' now
    rcases goTo_cases now with ⟨_, same⟩ | ⟨_, before⟩
    · cases same
      refine ⟨container, latest, unwritten, given, ?_, ?_, ?_⟩
      · rw [List.length_append, List.length_singleton]
        omega
      · have entry : (segment s.logged container)[r.length]? = some logdict := by
          rw [segment_getElem? more]
          have at_ := (consistent.numbered.getElem?_of_mem member).2.2
          rw [id, Nat.add_sub_cancel] at at_
          exact at_
        show r ++ [logdict] = (segment s.logged container).take (r ++ [logdict]).length
        rw [List.length_append, List.length_singleton, List.take_add_one, entry, ← reads.read]
        rfl
      · intro q' other stores
        have before := (old stores (by simp)).2
        obtain ⟨notLatest, apart⟩ := reads.passed q' other before
        have notNext := arrived q' other before
        refine ⟨notLatest, ?_⟩
        rw [List.length_append, List.length_singleton]
        omega
    · obtain ⟨container', reads'⟩ := consistent.reading q latest_id' r' before
      refine ⟨container', reads'.latest, reads'.unwritten, reads'.given, reads'.short,
        reads'.read, ?_⟩
      intro q' other stores
      exact reads'.passed q' other (old stores (by simp)).2
  case dumpers =>
    have single : ∀ {q : P} {r' : List (LogDict M)}, s.stage q = .reading latest_id r' →
        q = p :=
      fun reading => consistent.dumpers _ p latest_id _ r reading at_
    intro q q' latest_id' left right leftReads rightReads
    rcases goTo_cases leftReads with ⟨isP, same⟩ | ⟨_, leftOld⟩
    · cases same
      rcases goTo_cases rightReads with ⟨isP', _⟩ | ⟨_, rightOld⟩
      · rw [isP, isP']
      · rw [isP, single rightOld]
    · rcases goTo_cases rightReads with ⟨isP', same⟩ | ⟨_, rightOld⟩
      · cases same
        rw [isP', single leftOld]
      · exact consistent.dumpers q q' latest_id' left right leftOld rightOld
  case pending =>
    intro container' late enough
    rcases consistent.pending container' late enough with ⟨q, ⟨other, stores, same⟩ | ⟨r', reads'⟩⟩
    · exact ⟨q, .inl ⟨other, kept stores (by simp) _, same⟩⟩
    · by_cases same : q = p
      · rw [same, at_] at reads'
        cases reads'
        exact ⟨p, .inr ⟨r ++ [logdict], goTo_stage_self _ _ _⟩⟩
      · exact ⟨q, .inr ⟨r', (goTo_stage_of_ne s same _).trans reads'⟩⟩
  case listing =>
    intro q latest_id' lists
    exact consistent.listing q latest_id' (old lists (by simp)).2
  case removing =>
    intro q keys removes
    exact consistent.removing q keys (old removes (by simp)).2
  case cleaned =>
    intro id' other stored early
    rcases consistent.cleaned id' other stored early with
      ⟨q, ⟨latest_id', lists, covered⟩ | ⟨keys, removes, covered⟩⟩
    · exact ⟨q, .inl ⟨latest_id', kept lists (by simp) _, covered⟩⟩
    · exact ⟨q, .inr ⟨keys, kept removes (by simp) _, covered⟩⟩
  case successful => exact consistent.successful
  case newest => exact consistent.newest

/-! ## Writing a container -/

theorem toDelete_lt {count files : Nat} (some : 0 < files)
    (room : files ≤ count + 1 ∨ 11 ≤ count) : toDelete count files < files := by
  rw [toDelete]
  split <;> omega

theorem file_write_files (count : Nat) {s : Logging P M} {latest_id : Nat}
    (unused : ∀ file ∈ s.containers, file.stopid ≠ latest_id - 1000) (p : P)
    (r : List (LogDict M)) (now : Int) :
    (s.file_write count p latest_id r now).rotated ++
        (s.file_write count p latest_id r now).containers =
      s.rotated ++ s.containers ++ [⟨latest_id - 1000, now, r⟩] := by
  have all : s.containers.filter (fun file => file.stopid ≠ latest_id - 1000) = s.containers := by
    rw [List.filter_eq_self]
    intro file member
    exact decide_eq_true (unused file member)
  simp only [file_write, goTo_rotated, goTo_containers, all, List.append_assoc,
    List.take_append_drop]

theorem file_write_consistent {count : Nat} {s : Logging P M} (consistent : s.Consistent) {p : P}
    {latest_id : Nat} {r : List (LogDict M)} (at_ : s.stage p = .reading latest_id r)
    (complete : ¬ r.length < 1000) (inOrder : latest_id = 1000 * (s.written + 2))
    (room : s.containers.length + 1 ≤ count + 1 ∨ 11 ≤ count) (now : Int) :
    (s.file_write count p latest_id r now).Consistent := by
  obtain ⟨container, reads⟩ := consistent.reading p latest_id r at_
  have latest := reads.latest
  have given := reads.given
  have isNext : container = s.written := by omega
  subst isNext
  have unused : ∀ file ∈ s.containers, file.stopid ≠ latest_id - 1000 := by
    intro file member
    obtain ⟨index, found⟩ := List.mem_iff_getElem?.mp (List.mem_append_right s.rotated member)
    have below : index < s.written := by
      rw [written_eq]
      exact (List.getElem?_eq_some_iff.mp found).1
    rw [(consistent.filed index file found).1]
    omega
  have files := file_write_files count unused p r now
  have written : (s.file_write count p latest_id r now).written = s.written + 1 := by
    rw [written_eq, files, List.length_append, ← written_eq]
    rfl
  have whole : r = segment s.logged s.written := by
    have read := reads.read
    rw [List.take_of_length_le] at read
    · exact read
    · rw [segment, List.length_take]
      omega
  have old : ∀ {q : P} {stage : Stage M},
      (s.file_write count p latest_id r now).stage q = stage → stage ≠ .listing latest_id →
        q ≠ p ∧ s.stage q = stage := by
    intro q stage after different
    rcases goTo_cases after with ⟨_, same⟩ | before
    · exact absurd same.symm different
    · exact before
  have kept : ∀ {q : P} {stage : Stage M}, s.stage q = stage → stage ≠ .reading latest_id r →
      (s.file_write count p latest_id r now).stage q = stage := by
    intro q stage other busy
    exact goTo_stage_keeps other (fun same => busy (same.symm.trans at_)) _
  constructor
  case numbered => exact consistent.numbered
  case filed =>
    intro index file found
    rw [files] at found
    rcases Nat.lt_or_ge index s.written with before | after
    · rw [written_eq] at before
      rw [List.getElem?_append_left before] at found
      exact consistent.filed index file found
    · have at_end : index = s.written := by
        have below := (List.getElem?_eq_some_iff.mp found).1
        rw [List.length_append, ← written_eq, List.length_singleton] at below
        omega
      rw [at_end, written_eq, List.getElem?_concat_length] at found
      have isNew := Option.some.inj found
      rw [at_end, ← isNew]
      refine ⟨?_, whole⟩
      show latest_id - 1000 = 1000 * (s.written + 1)
      omega
  case enough =>
    intro _
    rw [written]
    show 1000 * (s.written + 1 + 1) ≤ s.incr
    omega
  case stored => exact consistent.stored
  case kept =>
    intro other inLog late
    rw [written] at late
    rcases consistent.kept other inLog (by omega) with found | ⟨q, stores⟩
    · exact .inl found
    · exact .inr ⟨q, kept stores (by simp)⟩
  case underway =>
    intro q other stores
    have before := (old stores (by simp)).2
    obtain ⟨member, late, _⟩ := consistent.underway q other before
    obtain ⟨notLatest, apart⟩ := reads.passed q other before
    rw [written]
    have long : r.length = 1000 := by
      have := reads.short
      omega
    exact ⟨member, by omega, fun _ => by omega⟩
  case alone =>
    intro q q' left right leftStores rightStores same
    exact consistent.alone q q' left right (old leftStores (by simp)).2
      (old rightStores (by simp)).2 same
  case reading =>
    intro q latest_id' r' reading
    obtain ⟨isOther, before⟩ := old reading (by simp)
    obtain ⟨container', reads'⟩ := consistent.reading q latest_id' r' before
    have notLast : container' ≠ s.written := by
      intro same
      have equal : latest_id' = latest_id := by
        rw [reads'.latest, same, latest]
      rw [equal] at before
      exact isOther (consistent.dumpers q p latest_id r' r before at_)
    have unwritten := reads'.unwritten
    refine ⟨container', reads'.latest, ?_, reads'.given, reads'.short, reads'.read, ?_⟩
    · rw [written]
      omega
    · intro q' other stores
      exact reads'.passed q' other (old stores (by simp)).2
  case dumpers =>
    intro q q' latest_id' left right leftReads rightReads
    exact consistent.dumpers q q' latest_id' left right (old leftReads (by simp)).2
      (old rightReads (by simp)).2
  case pending =>
    intro container' late enough
    rw [written] at late
    rcases consistent.pending container' (by omega) enough with
      ⟨q, ⟨other, stores, same⟩ | ⟨r', reads'⟩⟩
    · exact ⟨q, .inl ⟨other, kept stores (by simp), same⟩⟩
    · refine ⟨q, .inr ⟨r', kept reads' ?_⟩⟩
      intro same
      cases same
      omega
  case listing =>
    intro q latest_id' lists
    rw [written]
    rcases goTo_cases lists with ⟨_, same⟩ | ⟨_, before⟩
    · cases same
      omega
    · have := consistent.listing q latest_id' before
      omega
  case removing =>
    intro q keys removes key member
    have := consistent.removing q keys (old removes (by simp)).2 key member
    rw [written]
    omega
  case cleaned =>
    intro id other _ early
    rw [written] at early
    exact ⟨p, .inl ⟨latest_id, goTo_stage_self _ _ _, by omega⟩⟩
  case successful => exact consistent.successful
  case newest =>
    intro _ empty
    have all : s.containers.filter (fun file => file.stopid ≠ latest_id - 1000) =
        s.containers := by
      rw [List.filter_eq_self]
      intro file member
      exact decide_eq_true (unused file member)
    have length : (s.containers ++ [Container.mk (latest_id - 1000) now r]).length =
        s.containers.length + 1 := List.length_append
    have fewer := toDelete_lt (Nat.succ_pos s.containers.length) room
    have dropped : (s.containers ++ [Container.mk (latest_id - 1000) now r]).drop
        (toDelete count (s.containers ++ [Container.mk (latest_id - 1000) now r]).length) =
          [] := by
      rw [← all]
      exact empty
    rw [length, List.drop_eq_nil_iff, length] at dropped
    exact absurd dropped (Nat.not_le.mpr fewer)

/-! ## Removing from redis -/

theorem hkeys_consistent {s : Logging P M} (consistent : s.Consistent) {p : P}
    {latest_id : Nat} (at_ : s.stage p = .listing latest_id) :
    (s.hkeys p latest_id).Consistent := by
  have covered := consistent.listing p latest_id at_
  have old : ∀ {q : P} {stage : Stage M}, (s.hkeys p latest_id).stage q = stage →
      (∀ keys, rest keys ≠ stage) → q ≠ p ∧ s.stage q = stage := by
    intro q stage after different
    rcases goTo_cases after with ⟨_, same⟩ | before
    · exact absurd same (different _)
    · exact before
  have kept : ∀ {q : P} {stage : Stage M}, s.stage q = stage → stage ≠ .listing latest_id →
      (s.hkeys p latest_id).stage q = stage := by
    intro q stage other busy
    exact goTo_stage_keeps other (fun same => busy (same.symm.trans at_)) _
  constructor
  case numbered => exact consistent.numbered
  case filed => exact consistent.filed
  case enough => exact consistent.enough
  case stored => exact consistent.stored
  case kept =>
    intro other inLog late
    rcases consistent.kept other inLog late with found | ⟨q, stores⟩
    · exact .inl found
    · exact .inr ⟨q, kept stores (by simp)⟩
  case underway =>
    intro q other stores
    exact consistent.underway q other (old stores (rest_ne_storing · other)).2
  case alone =>
    intro q q' left right leftStores rightStores same
    exact consistent.alone q q' left right (old leftStores (rest_ne_storing · left)).2
      (old rightStores (rest_ne_storing · right)).2 same
  case reading =>
    intro q latest_id' r reading
    obtain ⟨container, reads⟩ := consistent.reading q latest_id' r
      (old reading (rest_ne_reading · latest_id' r)).2
    refine ⟨container, reads.latest, reads.unwritten, reads.given, reads.short, reads.read, ?_⟩
    intro q' other stores
    exact reads.passed q' other (old stores (rest_ne_storing · other)).2
  case dumpers =>
    intro q q' latest_id' left right leftReads rightReads
    exact consistent.dumpers q q' latest_id' left right
      (old leftReads (rest_ne_reading · latest_id' left)).2
      (old rightReads (rest_ne_reading · latest_id' right)).2
  case pending =>
    intro container late enough
    rcases consistent.pending container late enough with ⟨q, ⟨other, stores, same⟩ | ⟨r, reads⟩⟩
    · exact ⟨q, .inl ⟨other, kept stores (by simp), same⟩⟩
    · exact ⟨q, .inr ⟨r, kept reads (by simp)⟩⟩
  case listing =>
    intro q latest_id' lists
    exact consistent.listing q latest_id' (old lists (rest_ne_listing · latest_id')).2
  case removing =>
    intro q keys removes key member
    rcases goTo_cases removes with ⟨_, same⟩ | ⟨_, before⟩
    · rw [← rest_eq_removing same, List.mem_filter] at member
      have below := of_decide_eq_true member.2
      show key ≤ 1000 * s.written
      omega
    · exact consistent.removing q keys before key member
  case cleaned =>
    intro id other found early
    rcases consistent.cleaned id other found early with
      ⟨q, ⟨latest_id', lists, within⟩ | ⟨keys, removes, within⟩⟩
    · by_cases same : q = p
      · rw [same, at_] at lists
        cases lists
        have member : id ∈ s.data.keys.filter (fun key => key < latest_id - 1000 + 1) := by
          rw [List.mem_filter, OrderedMap.mem_keys_iff]
          exact ⟨⟨other, found⟩, decide_eq_true (by omega)⟩
        refine ⟨p, .inr ⟨_, ?_, member⟩⟩
        exact (goTo_stage_self _ _ _).trans (if_neg (List.ne_nil_of_mem member))
      · exact ⟨q, .inl ⟨latest_id', (goTo_stage_of_ne s same _).trans lists, within⟩⟩
    · exact ⟨q, .inr ⟨keys, kept removes (by simp), within⟩⟩
  case successful => exact consistent.successful
  case newest => exact consistent.newest

theorem hdel_consistent {s : Logging P M} (consistent : s.Consistent) {p : P}
    {keys : List Nat} (at_ : s.stage p = .removing keys) : (s.hdel p keys).Consistent := by
  have covered := consistent.removing p keys at_
  have old : ∀ {q : P} {stage : Stage M}, (s.hdel p keys).stage q = stage →
      (∀ keys, rest keys ≠ stage) → q ≠ p ∧ s.stage q = stage := by
    intro q stage after different
    rcases goTo_cases after with ⟨_, same⟩ | before
    · exact absurd same (different _)
    · exact before
  have kept : ∀ {q : P} {stage : Stage M}, s.stage q = stage → stage ≠ .removing keys →
      (s.hdel p keys).stage q = stage := by
    intro q stage other busy
    exact goTo_stage_keeps other (fun same => busy (same.symm.trans at_)) _
  have left : ∀ {id : Nat} {other : LogDict M},
      (s.hdel p keys).data.lookup id = some other ↔
        s.data.lookup id = some other ∧ id ∉ keys.take 100 := by
    intro id other
    have filtered : (s.hdel p keys).data.lookup id = some other ↔
        s.data.lookup id = some other ∧ decide (id ∉ keys.take 100) = true :=
      OrderedMap.lookup_filter_eq_some_iff
    rw [decide_eq_true_iff] at filtered
    exact filtered
  constructor
  case numbered => exact consistent.numbered
  case filed => exact consistent.filed
  case enough => exact consistent.enough
  case stored =>
    intro id other found
    exact consistent.stored id other (left.mp found).1
  case kept =>
    intro other inLog late
    rcases consistent.kept other inLog late with found | ⟨q, stores⟩
    · refine .inl (left.mpr ⟨found, ?_⟩)
      intro member
      have early := covered other.id (List.mem_of_mem_take member)
      change 1000 * s.written < other.id at late
      omega
    · exact .inr ⟨q, kept stores (by simp)⟩
  case underway =>
    intro q other stores
    exact consistent.underway q other (old stores (rest_ne_storing · other)).2
  case alone =>
    intro q q' first second leftStores rightStores same
    exact consistent.alone q q' first second (old leftStores (rest_ne_storing · first)).2
      (old rightStores (rest_ne_storing · second)).2 same
  case reading =>
    intro q latest_id r reading
    obtain ⟨container, reads⟩ := consistent.reading q latest_id r
      (old reading (rest_ne_reading · latest_id r)).2
    refine ⟨container, reads.latest, reads.unwritten, reads.given, reads.short, reads.read, ?_⟩
    intro q' other stores
    exact reads.passed q' other (old stores (rest_ne_storing · other)).2
  case dumpers =>
    intro q q' latest_id first second leftReads rightReads
    exact consistent.dumpers q q' latest_id first second
      (old leftReads (rest_ne_reading · latest_id first)).2
      (old rightReads (rest_ne_reading · latest_id second)).2
  case pending =>
    intro container late enough
    rcases consistent.pending container late enough with ⟨q, ⟨other, stores, same⟩ | ⟨r, reads⟩⟩
    · exact ⟨q, .inl ⟨other, kept stores (by simp), same⟩⟩
    · exact ⟨q, .inr ⟨r, kept reads (by simp)⟩⟩
  case listing =>
    intro q latest_id lists
    exact consistent.listing q latest_id (old lists (rest_ne_listing · latest_id)).2
  case removing =>
    intro q keys' removes key member
    rcases goTo_cases removes with ⟨_, same⟩ | ⟨_, before⟩
    · rw [← rest_eq_removing same] at member
      exact covered key (List.mem_of_mem_drop member)
    · exact consistent.removing q keys' before key member
  case cleaned =>
    intro id other found early
    obtain ⟨before, notTaken⟩ := left.mp found
    have early' : id ≤ 1000 * s.written := early
    rcases consistent.cleaned id other before early' with
      ⟨q, ⟨latest_id, lists, within⟩ | ⟨keys', removes, within⟩⟩
    · exact ⟨q, .inl ⟨latest_id, kept lists (by simp), within⟩⟩
    · by_cases same : q = p
      · rw [same, at_] at removes
        cases removes
        have member : id ∈ keys.drop 100 := by
          rw [← List.take_append_drop 100 keys, List.mem_append] at within
          exact within.resolve_left notTaken
        refine ⟨p, .inr ⟨_, ?_, member⟩⟩
        exact (goTo_stage_self _ _ _).trans (if_neg (List.ne_nil_of_mem member))
      · exact ⟨q, .inr ⟨keys', (goTo_stage_of_ne _ same _).trans removes, within⟩⟩
  case successful => exact consistent.successful
  case newest => exact consistent.newest

/-! ## Runs -/

/-- A step overtakes nobody: a dump reads a message only when it has arrived,
containers are written in the order of their ids, and a rotation has room for the
new one. -/
def Sound (count : Nat) (s : Logging P M) : Action P M → Prop
  | .log _ _ _ _ => True
  | .go p _ =>
      ∀ latest_id r, s.stage p = .reading latest_id r →
        (r.length < 1000 → ∀ q logdict, s.stage q = .storing logdict →
          logdict.id ≠ latest_id - 2000 + 1 + r.length) ∧
        (1000 ≤ r.length → latest_id = 1000 * (s.written + 2) ∧
          (s.containers.length + 1 ≤ count + 1 ∨ 11 ≤ count))

theorem step_consistent {count : Nat} {s : Logging P M} {action : Action P M}
    (consistent : s.Consistent) (sound : s.Sound count action) :
    (s.step count action).Consistent := by
  cases action with
  | log p message epoch now =>
      rw [step]
      split
      · rename_i idle
        exact handle_log_consistent consistent idle message epoch now
      · exact consistent
  | go p now =>
      rw [step, go]
      split
      · exact consistent
      · rename_i logdict at_
        exact hset_consistent consistent at_
      · rename_i latest_id r at_
        obtain ⟨arrived, inOrder⟩ := sound latest_id r at_
        split
        · rename_i more
          exact redis_get_consistent consistent at_ more (arrived more)
        · rename_i complete
          obtain ⟨next, room⟩ := inOrder (Nat.not_lt.mp complete)
          exact file_write_consistent consistent at_ complete next room now
      · rename_i latest_id at_
        exact hkeys_consistent consistent at_
      · rename_i keys at_
        exact hdel_consistent consistent at_

theorem run_consistent {count : Nat} {actions : List (Action P M)}
    (sound : Stateful.Along (Sound count) (step count) init actions) :
    (Runs.run (step count) init actions).Consistent :=
  Runs.run_keeps Consistent (fun _ _ consistent fits => step_consistent consistent fits)
    init_consistent sound

end Steps

end Logging

end JumpscaleX.Logs
