import JumpscaleX.Library.Selection
import JumpscaleX.LogConservation
import JumpscaleX.LogTail

/-!
# Every message of the tail once

What a client that follows the logs is given, for every order in which processes
log and the client reads.
-/

namespace JumpscaleX.Logs

open Selection

variable {P M : Type}

namespace Logging

/-! ## Recent messages -/

/-- What holds whether or not a dump overtakes a message: the thousand newest
messages are on their way or in redis, unless they were deleted. -/
structure Recent (s : Logging P M) (deleted : List Nat) : Prop where
  numbered : s.Numbered
  stored : ∀ id logdict, s.data.lookup id = some logdict →
    logdict ∈ s.logged ∧ logdict.id = id
  underway : ∀ p logdict, s.stage p = .storing logdict → logdict ∈ s.logged
  reading : ∀ p latest_id r, s.stage p = .reading latest_id r → latest_id ≤ s.incr
  listing : ∀ p latest_id, s.stage p = .listing latest_id → latest_id ≤ s.incr
  removing : ∀ p keys, s.stage p = .removing keys → ∀ key ∈ keys, key + 1000 ≤ s.incr
  present : ∀ logdict ∈ s.logged, s.incr < logdict.id + 1000 →
    s.data.lookup logdict.id = some logdict ∨ (∃ p, s.stage p = .storing logdict) ∨
      logdict.id ∈ deleted

/-- A message is not in redis and will not come there. -/
def Gone (s : Logging P M) (id : Nat) : Prop :=
  s.data.lookup id = none ∧ ∀ p logdict, s.stage p = .storing logdict → logdict.id ≠ id

theorem init_recent : (init : Logging P M).Recent [] where
  numbered := rfl
  stored := by
    intro id logdict found
    cases found
  underway := by
    intro p logdict at_
    cases at_
  reading := by
    intro p latest_id r at_
    cases at_
  listing := by
    intro p latest_id at_
    cases at_
  removing := by
    intro p keys at_
    cases at_
  present := by
    intro logdict member
    cases member

section Steps

variable [DecidableEq P] {s : Logging P M} {deleted : List Nat} {p : P}

theorem handle_log_recent (recent : s.Recent deleted) (idle : s.stage p = .idle) (message : M)
    (epoch now : Int) : (s.handle_log p message epoch now).Recent deleted := by
  have incr := handle_log_incr s p message epoch now
  constructor
  case numbered =>
    have numbered : s.logged.map LogDict.id = List.range' 1 s.incr := recent.numbered
    simp only [Numbered, handle_log, goTo_logged, goTo_incr, List.map_append, List.map_cons,
      List.map_nil, List.range'_1_concat, numbered, Nat.add_comm]
  case stored =>
    intro id logdict found
    obtain ⟨member, same⟩ := recent.stored id logdict found
    exact ⟨List.mem_append_left _ member, same⟩
  case underway =>
    intro q logdict at_
    rcases goTo_cases at_ with ⟨_, same⟩ | ⟨_, at_⟩
    · cases same
      exact List.mem_append_right _ (List.mem_singleton_self _)
    · exact List.mem_append_left _ (recent.underway q logdict at_)
  case reading =>
    intro q latest_id r at_
    rcases goTo_cases at_ with ⟨_, same⟩ | ⟨_, at_⟩
    · cases same
    · have := recent.reading q latest_id r at_
      omega
  case listing =>
    intro q latest_id at_
    rcases goTo_cases at_ with ⟨_, same⟩ | ⟨_, at_⟩
    · cases same
    · have := recent.listing q latest_id at_
      omega
  case removing =>
    intro q keys at_ key member
    rcases goTo_cases at_ with ⟨_, same⟩ | ⟨_, at_⟩
    · cases same
    · have := recent.removing q keys at_ key member
      omega
  case present =>
    intro logdict member late
    rcases List.mem_append.mp member with old | new
    · rcases recent.present logdict old (by omega) with found | ⟨q, at_⟩ | gone
      · exact .inl found
      · refine .inr (.inl ⟨q, goTo_stage_keeps at_ ?_ _⟩)
        rw [idle]
        simp
      · exact .inr (.inr gone)
    · rw [List.mem_singleton.mp new]
      exact .inr (.inl ⟨p, goTo_stage_self _ _ _⟩)

/-- A process goes on, with what it stored in redis. -/
theorem goTo_recent (recent : s.Recent deleted)
    (stored : ∀ logdict, s.stage p = .storing logdict →
      s.data.lookup logdict.id = some logdict)
    {next : Stage M}
    (reading : ∀ latest_id r, next = .reading latest_id r → latest_id ≤ s.incr)
    (listing : ∀ latest_id, next = .listing latest_id → latest_id ≤ s.incr)
    (removing : ∀ keys, next = .removing keys → ∀ key ∈ keys, key + 1000 ≤ s.incr)
    (storing : ∀ logdict, next ≠ .storing logdict) : (s.goTo p next).Recent deleted where
  numbered := recent.numbered
  stored := recent.stored
  underway := by
    intro q logdict at_
    rcases goTo_cases at_ with ⟨_, same⟩ | ⟨_, old⟩
    · exact absurd same (storing logdict)
    · exact recent.underway q logdict old
  reading := by
    intro q latest_id r at_
    rcases goTo_cases at_ with ⟨_, same⟩ | ⟨_, old⟩
    · exact reading latest_id r same
    · exact recent.reading q latest_id r old
  listing := by
    intro q latest_id at_
    rcases goTo_cases at_ with ⟨_, same⟩ | ⟨_, old⟩
    · exact listing latest_id same
    · exact recent.listing q latest_id old
  removing := by
    intro q keys at_
    rcases goTo_cases at_ with ⟨_, same⟩ | ⟨_, old⟩
    · exact removing keys same
    · exact recent.removing q keys old
  present := by
    intro logdict member late
    rcases recent.present logdict member late with found | ⟨q, stores⟩ | gone
    · exact .inl found
    · by_cases same : q = p
      · exact .inl (stored logdict (same ▸ stores))
      · exact .inr (.inl ⟨q, (goTo_stage_of_ne s same next).trans stores⟩)
    · exact .inr (.inr gone)

theorem insert_recent (recent : s.Recent deleted) {logdict : LogDict M}
    (member : logdict ∈ s.logged) :
    { s with data := s.data.insert logdict.id logdict }.Recent deleted where
  numbered := recent.numbered
  stored := by
    intro id other found
    have lookup := OrderedMap.lookup_insert s.data logdict.id id logdict
    rw [found] at lookup
    split at lookup
    · rename_i same
      cases lookup
      exact ⟨member, same.symm⟩
    · exact recent.stored id other lookup.symm
  underway := recent.underway
  reading := recent.reading
  listing := recent.listing
  removing := recent.removing
  present := by
    intro other inLog late
    have lookup := OrderedMap.lookup_insert s.data logdict.id other.id logdict
    by_cases same : other.id = logdict.id
    · rw [if_pos same] at lookup
      left
      rw [recent.numbered.eq_of_id_eq inLog member same] at lookup ⊢
      exact lookup
    · rw [if_neg same] at lookup
      rcases recent.present other inLog late with found | later
      · exact .inl (lookup.trans found)
      · exact .inr later

theorem hset_recent (recent : s.Recent deleted) {logdict : LogDict M}
    (at_ : s.stage p = .storing logdict) : (s.hset p logdict).Recent deleted := by
  have member := recent.underway p logdict at_
  obtain ⟨_, given, _⟩ := recent.numbered.getElem?_of_mem member
  apply goTo_recent (insert_recent recent member)
  · intro other stores
    cases at_.symm.trans stores
    exact OrderedMap.lookup_insert_self _ _ _
  · intro latest_id r next
    split at next <;> cases next
    exact given
  · intro latest_id next
    split at next <;> cases next
  · intro keys next
    split at next <;> cases next
  · intro other next
    split at next <;> cases next

theorem redis_get_recent (recent : s.Recent deleted) {latest_id : Nat} {r : List (LogDict M)}
    (at_ : s.stage p = .reading latest_id r) : (s._redis_get p latest_id r).Recent deleted := by
  have notStoring : ∀ logdict, s.stage p = .storing logdict →
      s.data.lookup logdict.id = some logdict := by
    intro logdict stores
    cases at_.symm.trans stores
  rw [_redis_get]
  split
  · have failing : { s with failed := s.failed ++ [latest_id] }.Recent deleted :=
      ⟨recent.numbered, recent.stored, recent.underway, recent.reading, recent.listing,
        recent.removing, recent.present⟩
    exact goTo_recent failing notStoring (by simp) (by simp) (by simp) (by simp)
  · refine goTo_recent recent notStoring ?_ (by simp) (by simp) (by simp)
    intro latest_id' r' next
    cases next
    exact recent.reading p latest_id r at_

theorem file_write_recent {count : Nat} (recent : s.Recent deleted) {latest_id : Nat}
    {r : List (LogDict M)} (at_ : s.stage p = .reading latest_id r) (now : Int) :
    (s.file_write count p latest_id r now).Recent deleted := by
  apply goTo_recent (s := { s with containers := _, rotated := _ })
  · exact ⟨recent.numbered, recent.stored, recent.underway, recent.reading, recent.listing,
      recent.removing, recent.present⟩
  · intro logdict stores
    cases at_.symm.trans stores
  · simp
  · intro latest_id' next
    cases next
    exact recent.reading p latest_id r at_
  · simp
  · simp

theorem rest_recent (recent : s.Recent deleted)
    (stored : ∀ logdict, s.stage p ≠ .storing logdict) {keys : List Nat}
    (old : ∀ key ∈ keys, key + 1000 ≤ s.incr) : (s.goTo p (rest keys)).Recent deleted := by
  apply goTo_recent recent
  · intro logdict stores
    exact absurd stores (stored logdict)
  · intro latest_id r next
    exact absurd next (rest_ne_reading keys latest_id r)
  · intro latest_id next
    exact absurd next (rest_ne_listing keys latest_id)
  · intro keys' next
    rw [← rest_eq_removing next]
    exact old
  · exact rest_ne_storing keys

/-- Keys are removed that are out of the thousand newest, or deleted. -/
theorem remove_recent (recent : s.Recent deleted) (gone : List Nat) (test : Nat → LogDict M → Bool)
    (removed : ∀ id logdict, s.data.lookup id = some logdict → test id logdict = false →
      id + 1000 ≤ s.incr ∨ id ∈ gone)
    (grown : ∀ id ∈ deleted, id ∈ gone) :
    { s with data := s.data.filter test }.Recent gone where
  numbered := recent.numbered
  stored := by
    intro id logdict found
    exact recent.stored id logdict (OrderedMap.lookup_filter_eq_some_iff.mp found).1
  underway := recent.underway
  reading := recent.reading
  listing := recent.listing
  removing := recent.removing
  present := by
    intro logdict member late
    have recently : s.incr < logdict.id + 1000 := late
    rcases recent.present logdict member late with found | stores | already
    · cases kept : test logdict.id logdict with
      | true => exact .inl (OrderedMap.lookup_filter_eq_some_iff.mpr ⟨found, kept⟩)
      | false =>
          rcases removed logdict.id logdict found kept with old | isGone
          · omega
          · exact .inr (.inr isGone)
    · exact .inr (.inl stores)
    · exact .inr (.inr (grown _ already))

theorem hkeys_recent (recent : s.Recent deleted) {latest_id : Nat}
    (at_ : s.stage p = .listing latest_id) : (s.hkeys p latest_id).Recent deleted := by
  have given := recent.listing p latest_id at_
  apply rest_recent recent
  · intro logdict stores
    cases at_.symm.trans stores
  · intro key member
    have below := of_decide_eq_true (List.mem_filter.mp member).2
    obtain ⟨logdict, found⟩ := OrderedMap.mem_keys_iff.mp (List.mem_filter.mp member).1
    obtain ⟨inLog, same⟩ := recent.stored key logdict found
    obtain ⟨positive, _, _⟩ := recent.numbered.getElem?_of_mem inLog
    omega

theorem hdel_recent (recent : s.Recent deleted) {keys : List Nat}
    (at_ : s.stage p = .removing keys) : (s.hdel p keys).Recent deleted := by
  have old := recent.removing p keys at_
  have taken : ∀ id logdict, s.data.lookup id = some logdict →
      decide (id ∉ keys.take 100) = false → id + 1000 ≤ s.incr ∨ id ∈ deleted := by
    intro id logdict _ taken
    rw [decide_eq_false_iff_not, not_not] at taken
    exact .inl (old id (List.mem_of_mem_take taken))
  have removed := remove_recent recent deleted (fun key _ => decide (key ∉ keys.take 100)) taken
    (fun _ member => member)
  apply rest_recent removed
  · intro logdict stores
    cases at_.symm.trans stores
  · intro key member
    exact old key (List.mem_of_mem_drop member)

theorem step_recent {count : Nat} (recent : s.Recent deleted) (action : Action P M) :
    (s.step count action).Recent deleted := by
  cases action with
  | log p message epoch now =>
      rw [step]
      split
      · rename_i idle
        exact handle_log_recent recent idle message epoch now
      · exact recent
  | go p now =>
      rw [step, go]
      split
      · exact recent
      · rename_i logdict at_
        exact hset_recent recent at_
      · rename_i latest_id r at_
        split
        · exact redis_get_recent recent at_
        · exact file_write_recent recent at_ now
      · rename_i latest_id at_
        exact hkeys_recent recent at_
      · rename_i keys at_
        exact hdel_recent recent at_

theorem erase_recent (recent : s.Recent deleted) (identifier : Nat) :
    { s with data := s.data.erase identifier }.Recent (deleted ++ [identifier]) := by
  apply remove_recent recent (deleted ++ [identifier]) (fun other _ => other ≠ identifier)
  · intro id logdict _ erased
    have same : id = identifier := by simpa using erased
    exact .inr (List.mem_append_right _ (List.mem_singleton.mpr same))
  · intro id member
    exact List.mem_append_left _ member

/-- What a step of the application leaves behind: the counter and the log grow, and
what is gone stays away. -/
structure Grows (s later : Logging P M) : Prop where
  incr : s.incr ≤ later.incr
  logged : ∀ logdict, logdict ∈ later.logged → logdict ∈ s.logged ∨ s.incr < logdict.id
  kept : ∀ logdict ∈ s.logged, logdict ∈ later.logged
  gone : ∀ id ≤ s.incr, s.Gone id → later.Gone id

omit [DecidableEq P] in
theorem Grows.refl (s : Logging P M) : s.Grows s :=
  ⟨Nat.le_refl _, fun _ member => .inl member, fun _ member => member, fun _ _ gone => gone⟩

/-- A step that logs nothing and stores nothing but what is on its way. -/
theorem grows_of_goTo (s later : Logging P M) (p : P) (next : Stage M)
    (incr : later.incr = s.incr) (logged : later.logged = s.logged)
    (stage : later.stage = s.stage) (data : ∀ id, s.Gone id → later.data.lookup id = none)
    (storing : ∀ logdict, next ≠ .storing logdict) : s.Grows (later.goTo p next) where
  incr := Nat.le_of_eq incr.symm
  logged := by
    intro logdict member
    rw [goTo_logged, logged] at member
    exact .inl member
  kept := by
    intro logdict member
    rw [goTo_logged, logged]
    exact member
  gone := by
    intro id _ gone
    refine ⟨data id gone, ?_⟩
    intro q logdict at_
    rcases goTo_cases at_ with ⟨_, same⟩ | ⟨_, old⟩
    · exact absurd same (storing logdict)
    · rw [stage] at old
      exact gone.2 q logdict old

theorem step_grows {count : Nat} (action : Action P M) : s.Grows (s.step count action) := by
  cases action with
  | log p message epoch now =>
      rw [step]
      split
      · constructor
        · exact Nat.le_succ _
        · intro logdict member
          rcases List.mem_append.mp member with old | new
          · exact .inl old
          · rw [List.mem_singleton.mp new]
            exact .inr (Nat.lt_succ_self _)
        · intro logdict member
          exact List.mem_append_left _ member
        · intro id given gone
          refine ⟨gone.1, ?_⟩
          intro q logdict at_
          rcases goTo_cases at_ with ⟨_, same⟩ | ⟨_, old⟩
          · cases same
            exact Nat.ne_of_gt (Nat.lt_succ_of_le given)
          · exact gone.2 q logdict old
      · exact .refl s
  | go p now =>
      rw [step, go]
      split
      · exact .refl s
      · rename_i logdict at_
        refine grows_of_goTo s { s with data := s.data.insert logdict.id logdict } p _ rfl rfl rfl
          ?_ ?_
        · intro id gone
          have other : id ≠ logdict.id := Ne.symm (gone.2 p logdict at_)
          exact (OrderedMap.lookup_insert_of_ne s.data other logdict).trans gone.1
        · intro other next
          split at next <;> cases next
      · rename_i latest_id r at_
        split
        · rw [_redis_get]
          split
          · exact grows_of_goTo s { s with failed := s.failed ++ [latest_id] } p _ rfl rfl rfl
              (fun id gone => gone.1) (by simp)
          · exact grows_of_goTo s s p _ rfl rfl rfl (fun id gone => gone.1) (by simp)
        · exact grows_of_goTo s { s with containers := _, rotated := _ } p (.listing latest_id)
            rfl rfl rfl (fun id gone => gone.1) (by simp)
      · exact grows_of_goTo s s p _ rfl rfl rfl (fun id gone => gone.1) (rest_ne_storing _)
      · rename_i keys at_
        refine grows_of_goTo s { s with data := s.data.filter (fun key _ => key ∉ keys.take 100) }
          p _ rfl rfl rfl ?_ (rest_ne_storing _)
        · intro id gone
          rw [Option.eq_none_iff_forall_ne_some]
          intro logdict found
          have before := (OrderedMap.lookup_filter_eq_some_iff.mp found).1
          rw [gone.1] at before
          cases before

omit [DecidableEq P] in
theorem erase_grows (s : Logging P M) (identifier : Nat) :
    s.Grows { s with data := s.data.erase identifier } where
  incr := Nat.le_refl _
  logged := fun _ member => .inl member
  kept := fun _ member => member
  gone := by
    intro id _ gone
    refine ⟨?_, gone.2⟩
    have erased := OrderedMap.lookup_erase s.data identifier id
    rw [gone.1, ite_self] at erased
    exact erased

end Steps

end Logging

namespace Following

/-! ## Reading the tail -/

/-- What a walk has read so far, from the newest message down. -/
structure Walking (f : Following P M) (w : Tail M) : Prop where
  lastkey : w.lastkey ≤ f.logging.incr
  marked : ∀ m ∈ f.mark, m ≤ w.lastkey
  started : ∃ a ∈ f.start, f.mark = none → a = w.lastkey
  maxitems : ∀ m ∈ f.mark, (w.lastkey : Int) < m + w.maxitems
  below : w.i ≤ w.lastkey
  bottom : ∀ l ∈ f.lastid, (l : Int) ≤ w.i
  counted : w.nrdone = w.res.length + 1
  read : ∀ logdict ∈ w.res, logdict ∈ f.logging.logged ∧ w.i < logdict.id ∧
    logdict.id ≤ w.lastkey ∧ 0 ≤ logdict.epoch ∧ logdict.epoch ≤ w.epoch_to
  descending : w.res.Pairwise fun first second => second.id < first.id
  room : (w.res.length : Int) + w.i ≤ w.lastkey
  full : ∀ l ∈ f.lastid, ∀ m ∈ f.mark, w.res.length + m ≤ w.lastkey
  readOver : ∀ logdict ∈ f.logging.logged, w.i < logdict.id → logdict.id ≤ w.lastkey →
    ∀ m ∈ f.mark, m < logdict.id → logdict ∈ w.res ∨ logdict.id ∈ f.deleted
  left : ∀ id : Nat, w.i < id → id ≤ w.lastkey →
    (∃ logdict ∈ w.res, logdict.id = id) ∨ f.logging.Gone id

/-- What the client was given, and what it goes on from. -/
structure Tailing (first : Option Nat) (f : Following P M) : Prop where
  recent : f.logging.Recent f.deleted
  marked : ∀ m ∈ f.mark, m ≤ f.logging.incr
  lastMark : ∀ l ∈ f.lastid, ∃ m ∈ f.mark, l ≤ m
  lastLogged : ∀ l ∈ f.lastid, ∃ logdict ∈ f.logging.logged, logdict.id = l
  lastAfter : ∀ l ∈ first, ∃ later ∈ f.lastid, l ≤ later
  gone : ∀ l ∈ f.lastid, ∀ m ∈ f.mark, ∀ id, l < id → id ≤ m → f.logging.Gone id
  unstarted : f.start = none → f.mark = none
  unmarked : f.tail = none → f.mark = none → f.start = none
  complete : ∀ a ∈ f.start, ∀ m ∈ f.mark, ∀ logdict ∈ f.logging.logged,
    a < logdict.id → logdict.id ≤ m → logdict ∈ f.delivered ∨ logdict.id ∈ f.deleted
  ordered : Ascending LogDict.id f.delivered
  inLog : ∀ logdict ∈ f.delivered, logdict ∈ f.logging.logged
  upTo : ∀ logdict ∈ f.delivered, ∃ l ∈ f.lastid, logdict.id ≤ l
  after : ∀ l ∈ first, ∀ logdict ∈ f.delivered, l < logdict.id
  newest : f.lastid = (f.delivered.getLast?.map LogDict.id).or first
  walking : ∀ w ∈ f.tail, f.Walking w

/-- The application goes on, and messages are deleted. -/
theorem tailing_of_grows {first : Option Nat} {f : Following P M} (tailing : f.Tailing first)
    {later : Logging P M} {gone : List Nat} (grows : f.logging.Grows later)
    (recent : later.Recent gone) (deleted : ∀ id ∈ f.deleted, id ∈ gone) :
    { f with logging := later, deleted := gone }.Tailing first := by
  have old : ∀ {logdict : LogDict M} {bound : Nat}, logdict ∈ later.logged →
      logdict.id ≤ bound → bound ≤ f.logging.incr → logdict ∈ f.logging.logged := by
    intro logdict bound member below given
    rcases grows.logged logdict member with old | new
    · exact old
    · omega
  constructor
  case recent => exact recent
  case marked =>
    intro m isMark
    exact Nat.le_trans (tailing.marked m isMark) grows.incr
  case lastMark => exact tailing.lastMark
  case lastLogged =>
    intro l isLast
    obtain ⟨logdict, member, same⟩ := tailing.lastLogged l isLast
    exact ⟨logdict, grows.kept logdict member, same⟩
  case lastAfter => exact tailing.lastAfter
  case gone =>
    intro l isLast m isMark id after upTo
    have given := tailing.marked m isMark
    exact grows.gone id (by omega) (tailing.gone l isLast m isMark id after upTo)
  case unstarted => exact tailing.unstarted
  case unmarked => exact tailing.unmarked
  case complete =>
    intro a isStart m isMark logdict member after upTo
    have inLog := old member upTo (tailing.marked m isMark)
    exact (tailing.complete a isStart m isMark logdict inLog after upTo).imp id (deleted _)
  case ordered => exact tailing.ordered
  case inLog =>
    intro logdict member
    exact grows.kept logdict (tailing.inLog logdict member)
  case upTo => exact tailing.upTo
  case after => exact tailing.after
  case newest => exact tailing.newest
  case walking =>
    intro w isTail
    have walking := tailing.walking w isTail
    refine ⟨Nat.le_trans walking.lastkey grows.incr, walking.marked, walking.started,
      walking.maxitems, walking.below, walking.bottom, walking.counted, ?_, walking.descending,
      walking.room, walking.full, ?_, ?_⟩
    · intro logdict member
      obtain ⟨inLog, rest⟩ := walking.read logdict member
      exact ⟨grows.kept logdict inLog, rest⟩
    · intro logdict member above upTo m isMark after
      have inLog := old member upTo walking.lastkey
      exact (walking.readOver logdict inLog above upTo m isMark after).imp id (deleted _)
    · intro key above upTo
      have given := walking.lastkey
      exact (walking.left key above upTo).imp id (grows.gone key (by omega))

/-- A call begins. -/
theorem tail_get_tailing {first : Option Nat} {f : Following P M} (tailing : f.Tailing first)
    (idle : f.tail = none) {maxitems : Int}
    (fits : ∀ m ∈ f.mark, (f.logging.incr : Int) < m + maxitems) (now : Int) :
    (f.tail_get maxitems now).Tailing first := by
  constructor
  case recent => exact tailing.recent
  case marked => exact tailing.marked
  case lastMark => exact tailing.lastMark
  case lastLogged => exact tailing.lastLogged
  case lastAfter => exact tailing.lastAfter
  case gone => exact tailing.gone
  case unstarted =>
    intro none
    cases start : f.start with
    | none => exact tailing.unstarted start
    | some a =>
        rw [tail_get, start] at none
        cases none
  case unmarked =>
    intro none
    cases none
  case complete =>
    intro a isStart m isMark logdict member after upTo
    cases start : f.start with
    | none =>
        have unmarked : f.mark = none := tailing.unstarted start
        rw [tail_get, unmarked] at isMark
        cases isMark
    | some b =>
        rw [tail_get, start] at isStart
        exact tailing.complete a (start.symm ▸ isStart) m isMark logdict member after upTo
  case ordered => exact tailing.ordered
  case inLog => exact tailing.inLog
  case upTo => exact tailing.upTo
  case after => exact tailing.after
  case newest => exact tailing.newest
  case walking =>
    intro w isTail
    cases isTail
    have given := tailing.marked
    constructor
    case lastkey => exact Nat.le_refl _
    case marked => exact given
    case started =>
      cases start : f.start with
      | none => exact ⟨f.logging.incr, by rw [tail_get, start]; rfl, fun _ => rfl⟩
      | some a =>
          refine ⟨a, by rw [tail_get, start]; rfl, ?_⟩
          intro unmarked
          have none := tailing.unmarked idle unmarked
          rw [start] at none
          cases none
    case maxitems => exact fits
    case below => exact Int.le_refl _
    case bottom =>
      intro l isLast
      obtain ⟨m, isMark, below⟩ := tailing.lastMark l isLast
      have := given m isMark
      show (l : Int) ≤ f.logging.incr
      omega
    case counted => rfl
    case read =>
      intro logdict member
      cases member
    case descending => exact List.Pairwise.nil
    case room =>
      show ((0 : Nat) : Int) + f.logging.incr ≤ f.logging.incr
      omega
    case full =>
      intro l _ m isMark
      have := given m isMark
      show 0 + m ≤ f.logging.incr
      omega
    case readOver =>
      intro logdict _ above upTo
      exact absurd above (by simpa using upTo)
    case left =>
      intro id above upTo
      exact absurd above (by simpa using upTo)

/-- A call ends, when the walk has come down to the counter of the call before, and
with nothing new to the last id. -/
theorem finish_tailing {first : Option Nat} {f : Following P M} {w : Tail M}
    (tailing : f.Tailing first) (isTail : f.tail = some w)
    (down : ∀ m ∈ f.mark, w.i ≤ m) (nothing : w.res = [] → ∀ l ∈ f.lastid, w.i ≤ l) :
    (f.finish w).Tailing first := by
  have walking := tailing.walking w isTail
  have inTime : w.res.reverse.filter
      (fun logdict => 0 ≤ logdict.epoch ∧ logdict.epoch ≤ w.epoch_to) = w.res.reverse := by
    rw [List.filter_eq_self]
    intro logdict member
    have := walking.read logdict (List.mem_reverse.mp member)
    simp [this]
  have delivered : (f.finish w).delivered = f.delivered ++ w.res.reverse := by
    rw [← inTime]
    rfl
  have ascending : Ascending LogDict.id w.res.reverse := by
    rw [Ascending, List.pairwise_reverse]
    exact walking.descending
  have beyond : ∀ logdict ∈ w.res, ∀ l ∈ f.lastid, l < logdict.id := by
    intro logdict member l isLast
    have above := (walking.read logdict member).2.1
    have bottom := walking.bottom l isLast
    omega
  -- the last id is that of the newest message read, or stays
  have last : (w.res = [] ∧ (f.finish w).lastid = f.lastid) ∨
      ∃ newest ∈ w.res, (f.finish w).lastid = some newest.id ∧
        w.res.reverse.getLast? = some newest ∧ ∀ logdict ∈ w.res, logdict.id ≤ newest.id := by
    cases read : w.res with
    | nil =>
        left
        refine ⟨rfl, ?_⟩
        rw [finish, read]
        rfl
    | cons newest older =>
        right
        have isNewest : w.res.reverse.getLast? = some newest := by
          rw [List.getLast?_reverse, read]
          rfl
        refine ⟨newest, List.mem_cons_self, ?_, ?_, ?_⟩
        · rw [finish, isNewest]
        · rw [← read, isNewest]
        · intro logdict member
          have descending := walking.descending
          rw [read] at descending
          rcases List.mem_cons.mp member with same | later
          · rw [same]
          · exact Nat.le_of_lt ((List.pairwise_cons.mp descending).1 logdict later)
  constructor
  case recent => exact tailing.recent
  case marked =>
    intro m isMark
    cases isMark
    exact walking.lastkey
  case lastMark =>
    intro l isLast
    refine ⟨w.lastkey, rfl, ?_⟩
    rcases last with ⟨_, kept⟩ | ⟨newest, member, isNew, _⟩
    · rw [kept] at isLast
      obtain ⟨m, isMark, below⟩ := tailing.lastMark l isLast
      exact Nat.le_trans below (walking.marked m isMark)
    · rw [isNew] at isLast
      cases isLast
      exact (walking.read newest member).2.2.1
  case lastLogged =>
    intro l isLast
    rcases last with ⟨_, kept⟩ | ⟨newest, member, isNew, _⟩
    · rw [kept] at isLast
      exact tailing.lastLogged l isLast
    · rw [isNew] at isLast
      cases isLast
      exact ⟨newest, (walking.read newest member).1, rfl⟩
  case lastAfter =>
    intro l isFirst
    obtain ⟨old, isOld, below⟩ := tailing.lastAfter l isFirst
    rcases last with ⟨_, kept⟩ | ⟨newest, member, isNew, _⟩
    · rw [kept]
      exact ⟨old, isOld, below⟩
    · rw [isNew]
      have := beyond newest member old isOld
      exact ⟨newest.id, rfl, by omega⟩
  case gone =>
    intro l isLast m isMark id after upTo
    cases isMark
    rcases last with ⟨empty, kept⟩ | ⟨newest, member, isNew, _, greatest⟩
    · rw [kept] at isLast
      have bottom := nothing empty l isLast
      rcases walking.left id (by omega) upTo with ⟨logdict, inRes, _⟩ | gone
      · rw [empty] at inRes
        cases inRes
      · exact gone
    · rw [isNew] at isLast
      cases isLast
      have above := (walking.read newest member).2.1
      rcases walking.left id (by omega) upTo with ⟨logdict, inRes, same⟩ | gone
      · have := greatest logdict inRes
        omega
      · exact gone
  case unstarted =>
    intro unstarted
    obtain ⟨a, isStart, _⟩ := walking.started
    have start : f.start = none := unstarted
    rw [start] at isStart
    cases isStart
  case unmarked =>
    intro _ none
    cases none
  case complete =>
    intro a isStart m isMark logdict member after upTo
    cases isMark
    rw [delivered]
    cases mark : f.mark with
    | none =>
        -- the first call of a client without a last id starts at its own counter
        obtain ⟨b, isB, isLastkey⟩ := walking.started
        have same : a = b := Option.some.inj (isStart.symm.trans isB)
        have := isLastkey mark
        omega
    | some old =>
        rcases Nat.lt_or_ge old logdict.id with new | before
        · have low := down old mark
          rcases walking.readOver logdict member (by omega) upTo old mark new with inRes | gone
          · exact .inl (List.mem_append_right _ (List.mem_reverse.mpr inRes))
          · exact .inr gone
        · have earlier := tailing.complete a isStart old mark logdict member after before
          exact earlier.imp (List.mem_append_left _) id
  case ordered =>
    rw [delivered, ascending_append]
    refine ⟨tailing.ordered, ascending, ?_⟩
    intro old oldMember new newMember
    obtain ⟨l, isLast, upTo⟩ := tailing.upTo old oldMember
    have := beyond new (List.mem_reverse.mp newMember) l isLast
    omega
  case inLog =>
    intro logdict member
    rw [delivered] at member
    rcases List.mem_append.mp member with old | new
    · exact tailing.inLog logdict old
    · exact (walking.read logdict (List.mem_reverse.mp new)).1
  case upTo =>
    intro logdict member
    rw [delivered] at member
    rcases last with ⟨empty, kept⟩ | ⟨newest, inRes, isNew, _, greatest⟩
    · rw [empty, List.reverse_nil, List.append_nil] at member
      rw [kept]
      exact tailing.upTo logdict member
    · rw [isNew]
      refine ⟨newest.id, rfl, ?_⟩
      rcases List.mem_append.mp member with old | new
      · obtain ⟨l, isLast, upTo⟩ := tailing.upTo logdict old
        have := beyond newest inRes l isLast
        omega
      · exact greatest logdict (List.mem_reverse.mp new)
  case after =>
    intro l isFirst logdict member
    rw [delivered] at member
    rcases List.mem_append.mp member with old | new
    · exact tailing.after l isFirst logdict old
    · obtain ⟨later, isLast, below⟩ := tailing.lastAfter l isFirst
      have := beyond logdict (List.mem_reverse.mp new) later isLast
      omega
  case newest =>
    rw [delivered]
    rcases last with ⟨empty, kept⟩ | ⟨newest, _, isNew, isLast, _⟩
    · rw [empty, List.reverse_nil, List.append_nil, kept]
      exact tailing.newest
    · have some : w.res.reverse ≠ [] := by
        intro empty
        rw [empty] at isLast
        cases isLast
      rw [isNew, List.getLast?_append_of_ne_nil _ some, isLast]
      rfl
  case walking =>
    intro w' isTail'
    cases isTail'

/-! ## Runs -/

/-- The message that the client reads next is not on its way; the one with the last
id was not deleted when the client comes to it; and one that it is given is in
time. -/
structure Arrived (f : Following P M) (w : Tail M) : Prop where
  stored : ∀ p logdict, f.logging.stage p = .storing logdict → (logdict.id : Int) ≠ w.i
  kept : ∀ l ∈ f.lastid, (l : Int) = w.i → l ∉ f.deleted
  inTime : ∀ logdict, f.logging.get w.i = some logdict → f.lastid ≠ some logdict.id →
    0 ≤ logdict.epoch ∧ logdict.epoch ≤ w.epoch_to

theorem get_eq_some {s : Logging P M} {deleted : List Nat} (recent : s.Recent deleted)
    {number : Int} {logdict : LogDict M} (found : s.get number = some logdict) :
    number = logdict.id ∧ logdict ∈ s.logged ∧ s.data.lookup logdict.id = some logdict := by
  cases number with
  | ofNat id =>
      obtain ⟨member, same⟩ := recent.stored id logdict found
      exact ⟨congrArg Int.ofNat same.symm, member, same ▸ found⟩
  | negSucc id => cases found

/-- A recent message that is neither on its way nor deleted is in redis. -/
theorem get_of_recent {s : Logging P M} {deleted : List Nat} (recent : s.Recent deleted)
    {logdict : LogDict M} (member : logdict ∈ s.logged) (late : s.incr < logdict.id + 1000)
    (stored : ∀ p other, s.stage p = .storing other → other.id ≠ logdict.id) :
    s.get logdict.id = some logdict ∨ logdict.id ∈ deleted := by
  rcases recent.present logdict member late with found | ⟨p, at_⟩ | gone
  · exact .inl found
  · exact absurd rfl (stored p logdict at_)
  · exact .inr gone

theorem read_tailing {first : Option Nat} {f : Following P M} {w : Tail M}
    (tailing : f.Tailing first) (isTail : f.tail = some w)
    (sinceMark : ∀ m ∈ f.mark, f.logging.incr < m + 1000)
    (sinceLast : ∀ l ∈ f.lastid, f.logging.incr < l + 1000)
    (arrives : (w.lastkey : Int) - 2000 < w.i → f.Arrived w) :
    (f.read w).Tailing first := by
  have walking := tailing.walking w isTail
  have marked : ∀ l ∈ f.lastid, ∀ m ∈ f.mark, l ≤ m := by
    intro l isLast m isMark
    obtain ⟨other, isOther, below⟩ := tailing.lastMark l isLast
    rw [Option.mem_def] at isMark isOther
    rw [isMark] at isOther
    cases isOther
    exact below
  rw [read]
  by_cases more : (w.lastkey : Int) - 2000 < w.i
  · rw [if_pos more]
    have arrived := arrives more
    have notStored : ∀ {id : Nat}, (id : Int) = w.i →
        ∀ p other, f.logging.stage p = .storing other → other.id ≠ id := by
      intro id here p other at_ same
      exact arrived.stored p other at_ (by omega)
    cases found : f.logging.get w.i with
    | none =>
        -- the message with the last id is found
        have above : ∀ l ∈ f.lastid, (l : Int) ≤ w.i - 1 := by
          intro l isLast
          have bottom := walking.bottom l isLast
          by_contra notAbove
          have here : (l : Int) = w.i := by omega
          obtain ⟨logdict, member, same⟩ := tailing.lastLogged l isLast
          rcases get_of_recent tailing.recent member (by have := sinceLast l isLast; omega)
            (notStored (by omega)) with got | gone
          · rw [same, here, found] at got
            cases got
          · exact arrived.kept l isLast here (same ▸ gone)
        have noMark := walking.marked
        refine ⟨tailing.recent, tailing.marked, tailing.lastMark, tailing.lastLogged,
          tailing.lastAfter, tailing.gone, tailing.unstarted, ?_, tailing.complete,
          tailing.ordered, tailing.inLog, tailing.upTo, tailing.after, tailing.newest, ?_⟩
        · intro none
          cases none
        · intro w' isTail'
          cases isTail'
          refine ⟨walking.lastkey, walking.marked, walking.started, walking.maxitems, ?_, above,
            walking.counted, ?_, walking.descending, ?_, walking.full, ?_, ?_⟩
          · have := walking.below
            show w.i - 1 ≤ w.lastkey
            omega
          · intro logdict member
            obtain ⟨inLog, later, rest⟩ := walking.read logdict member
            refine ⟨inLog, ?_, rest⟩
            show w.i - 1 < logdict.id
            omega
          · have := walking.room
            show (w.res.length : Int) + (w.i - 1) ≤ w.lastkey
            omega
          · intro logdict member above' upTo m isMark after
            have reached : w.i - 1 < logdict.id := above'
            by_cases here : (logdict.id : Int) = w.i
            · rcases get_of_recent tailing.recent member
                (by have := sinceMark m isMark; omega) (notStored here) with got | gone
              · rw [here, found] at got
                cases got
              · exact .inr gone
            · exact walking.readOver logdict member (by omega) upTo m isMark after
          · intro id above' upTo
            have reached : w.i - 1 < id := above'
            by_cases here : (id : Int) = w.i
            · refine .inr ⟨?_, notStored here⟩
              rw [← here] at found
              exact found
            · exact walking.left id (by omega) upTo
    | some logdict =>
        obtain ⟨here, member, lookup⟩ := get_eq_some tailing.recent found
        show (if w.maxitems < w.nrdone then f.finish w
          else if f.lastid = some logdict.id then f.finish w
          else { f with
            tail := some { w with
              i := w.i - 1
              nrdone := w.nrdone + 1
              res := w.res ++ [logdict] } }).Tailing first
        by_cases full : w.maxitems < w.nrdone
        · rw [if_pos full]
          have counted := walking.counted
          have room := walking.room
          apply finish_tailing tailing isTail
          · intro m isMark
            have := walking.maxitems m isMark
            omega
          · intro empty l isLast
            obtain ⟨m, isMark, _⟩ := tailing.lastMark l isLast
            have := walking.maxitems m isMark
            have := walking.marked m isMark
            rw [empty] at counted
            simp only [List.length_nil] at counted
            omega
        · rw [if_neg full]
          by_cases isLast : f.lastid = some logdict.id
          · rw [if_pos isLast]
            apply finish_tailing tailing isTail
            · intro m isMark
              have := marked logdict.id isLast m isMark
              omega
            · intro _ l isL
              rw [Option.mem_def, isLast] at isL
              cases isL
              exact Int.le_of_eq here
          · rw [if_neg isLast]
            have inTime := arrived.inTime logdict found isLast
            have above : ∀ l ∈ f.lastid, (l : Int) ≤ w.i - 1 := by
              intro l isL
              have bottom := walking.bottom l isL
              have different : l ≠ logdict.id := fun same => isLast (same ▸ isL)
              omega
            -- what lies between the last id and the counter of the call before is gone
            have new : ∀ l ∈ f.lastid, ∀ m ∈ f.mark, m < logdict.id := by
              intro l isL m isMark
              by_contra old
              have between := above l isL
              have gone := tailing.gone l isL m isMark logdict.id (by omega) (Nat.not_lt.mp old)
              rw [gone.1] at lookup
              cases lookup
            refine ⟨tailing.recent, tailing.marked, tailing.lastMark, tailing.lastLogged,
              tailing.lastAfter, tailing.gone, tailing.unstarted, ?_, tailing.complete,
              tailing.ordered, tailing.inLog, tailing.upTo, tailing.after, tailing.newest, ?_⟩
            · intro none
              cases none
            · intro w' isTail'
              cases isTail'
              have below := walking.below
              have room := walking.room
              refine ⟨walking.lastkey, walking.marked, walking.started, walking.maxitems, ?_, above,
                ?_, ?_, ?_, ?_, ?_, ?_, ?_⟩
              · show w.i - 1 ≤ w.lastkey
                omega
              · have := walking.counted
                show w.nrdone + 1 = ((w.res ++ [logdict]).length : Int) + 1
                rw [List.length_append, List.length_singleton]
                omega
              · intro other inRes
                show other ∈ f.logging.logged ∧ w.i - 1 < other.id ∧ other.id ≤ w.lastkey ∧ _
                rcases List.mem_append.mp inRes with old | isNew
                · obtain ⟨inLog, later, rest⟩ := walking.read other old
                  exact ⟨inLog, by omega, rest⟩
                · rw [List.mem_singleton.mp isNew]
                  exact ⟨member, by omega, by omega, inTime⟩
              · rw [List.pairwise_append]
                refine ⟨walking.descending, List.pairwise_singleton _ _, ?_⟩
                intro other old newest isNew
                have later := (walking.read other old).2.1
                rw [List.mem_singleton.mp isNew]
                omega
              · show ((w.res ++ [logdict]).length : Int) + (w.i - 1) ≤ w.lastkey
                rw [List.length_append, List.length_singleton]
                omega
              · intro l isL m isMark
                have := new l isL m isMark
                show (w.res ++ [logdict]).length + m ≤ w.lastkey
                rw [List.length_append, List.length_singleton]
                omega
              · intro other inLog above' upTo m isMark after
                have reached : w.i - 1 < other.id := above'
                by_cases same : (other.id : Int) = w.i
                · have equal := tailing.recent.numbered.eq_of_id_eq inLog member (by omega)
                  rw [equal]
                  exact .inl (List.mem_append_right _ (List.mem_singleton_self _))
                · exact (walking.readOver other inLog (by omega) upTo m isMark after).imp
                    (List.mem_append_left _) id
              · intro key above' upTo
                have reached : w.i - 1 < key := above'
                by_cases same : (key : Int) = w.i
                · left
                  exact ⟨logdict, List.mem_append_right _ (List.mem_singleton_self _), by omega⟩
                · rcases walking.left key (by omega) upTo with ⟨other, inRes, isKey⟩ | gone
                  · exact .inl ⟨other, List.mem_append_left _ inRes, isKey⟩
                  · exact .inr gone
  · rw [if_neg more]
    have lastkey := walking.lastkey
    apply finish_tailing tailing isTail
    · intro m isMark
      have := sinceMark m isMark
      omega
    · intro _ l isLast
      have := sinceLast l isLast
      omega

/-- Between two calls less than `maxitems` and less than a thousand messages are
logged. -/
def Paced (f : Following P M) : Action P M → Prop
  | .log _ => True
  | .delete _ => True
  | .tail_get maxitems _ => ∀ m ∈ f.mark, (f.logging.incr : Int) < m + maxitems
  | .read => ∀ m ∈ f.mark, f.logging.incr < m + 1000

/-- The client is paced, what it reads has arrived, and its last id is among the
newest thousand. -/
def Sound (f : Following P M) (action : Action P M) : Prop :=
  f.Paced action ∧ (action = .read → ∀ w ∈ f.tail,
    (∀ l ∈ f.lastid, f.logging.incr < l + 1000) ∧
      ((w.lastkey : Int) - 2000 < w.i → f.Arrived w))

/-- The client is given every message behind its start once and in the order of the
ids, but for deleted ones, and its last id is the one of the newest message. -/
structure Followed (first : Option Nat) (f : Following P M) : Prop where
  ordered : Ascending LogDict.id f.delivered
  inLog : ∀ logdict ∈ f.delivered, logdict ∈ f.logging.logged
  after : ∀ l ∈ first, ∀ logdict ∈ f.delivered, l < logdict.id
  complete : ∀ a ∈ f.start, ∀ m ∈ f.mark, ∀ logdict ∈ f.logging.logged,
    a < logdict.id → logdict.id ≤ m → logdict ∈ f.delivered ∨ logdict.id ∈ f.deleted
  newest : f.lastid = (f.delivered.getLast?.map LogDict.id).or first

variable [DecidableEq P]

theorem step_tailing {count : Nat} {first : Option Nat} {f : Following P M}
    (tailing : f.Tailing first) {action : Action P M} (sound : f.Sound action) :
    (f.step count action).Tailing first := by
  obtain ⟨paced, arrives⟩ := sound
  cases action with
  | log action =>
      exact tailing_of_grows tailing (Logging.step_grows action)
        (Logging.step_recent tailing.recent action) (fun _ member => member)
  | delete identifier =>
      exact tailing_of_grows tailing (Logging.erase_grows f.logging identifier)
        (Logging.erase_recent tailing.recent identifier)
        (fun _ member => List.mem_append_left _ member)
  | tail_get maxitems now =>
      rw [step]
      split
      · rename_i idle
        exact tail_get_tailing tailing idle paced now
      · exact tailing
  | read =>
      rw [step]
      split
      · exact tailing
      · rename_i w isTail
        obtain ⟨sinceLast, arrived⟩ := arrives rfl w isTail
        exact read_tailing tailing isTail paced sinceLast arrived

theorem begin_tailing {logging : Logging P M} (recent : logging.Recent []) {first : Option Nat}
    (known : ∀ l ∈ first, 0 < l ∧ l ≤ logging.incr) : (begin logging first).Tailing first where
  recent := recent
  marked := fun m isMark => (known m isMark).2
  lastMark := fun l isLast => ⟨l, isLast, Nat.le_refl l⟩
  lastLogged := by
    intro l isLast
    obtain ⟨positive, given⟩ := known l isLast
    exact recent.numbered.getElem?_isSome l positive given
  lastAfter := fun l isFirst => ⟨l, isFirst, Nat.le_refl l⟩
  gone := by
    intro l isLast m isMark id after upTo
    have same : l = m := Option.some.inj (isLast.symm.trans isMark)
    omega
  unstarted := id
  unmarked := fun _ none => none
  complete := by
    intro a isStart m isMark logdict _ after upTo
    have same : a = m := Option.some.inj (isStart.symm.trans isMark)
    omega
  ordered := List.Pairwise.nil
  inLog := by
    intro logdict member
    cases member
  upTo := by
    intro logdict member
    cases member
  after := by
    intro l _ logdict member
    cases member
  newest := rfl
  walking := by
    intro w isTail
    cases isTail

/-- Along every run in which nothing that the client reads is on its way, the client
is given every message once. -/
theorem run_followed {count : Nat} {before : List (Logging.Action P M)} {first : Option Nat}
    (known : ∀ l ∈ first, 0 < l ∧ l ≤ (Runs.run (Logging.step count) .init before).incr)
    {actions : List (Action P M)}
    (sound : Stateful.Along Sound (step count)
      (begin (Runs.run (Logging.step count) .init before) first) actions) :
    (Runs.run (step count)
      (begin (Runs.run (Logging.step count) .init before) first) actions).Followed first := by
  have recent : (Runs.run (Logging.step count) (.init : Logging P M) before).Recent [] :=
    Runs.run_always (fun s : Logging P M => s.Recent [])
      (fun _ action recent => Logging.step_recent recent action) Logging.init_recent before
  have tailing := Runs.run_keeps (Tailing first)
    (fun _ _ tailing sound => step_tailing tailing sound) (begin_tailing recent known) sound
  exact ⟨tailing.ordered, tailing.inLog, tailing.after, tailing.complete, tailing.newest⟩

/-- One message is logged. -/
def logOne : List (Logging.Action Bool Unit) :=
  [.log true () 0 7, .go true 7]

/-- A call that comes to the next message, and then to the last id. -/
def oneCall : List (Action Bool Unit) :=
  [.log (.log true () 0 7), .log (.go true 7), .tail_get 200 7, .read, .read]

omit [DecidableEq P] in
/-- Nothing is on its way or deleted, and all messages are in time. -/
theorem arrived_of_quiet {f : Following P M} {w : Tail M} (recent : f.logging.Recent [])
    (quiet : f.logging.Quiet) (kept : f.deleted = [])
    (inTime : ∀ logdict ∈ f.logging.logged, 0 ≤ logdict.epoch ∧ logdict.epoch ≤ w.epoch_to) :
    f.Arrived w where
  stored := by
    intro p logdict at_
    cases (quiet p).symm.trans at_
  kept := by
    intro l _ _ deleted
    rw [kept] at deleted
    cases deleted
  inTime := by
    intro logdict found _
    exact inTime logdict (get_eq_some recent found).2.1

theorem sound_oneCall : Stateful.Along Sound (step 50)
    (begin (Runs.run (Logging.step 50) .init logOne) (some 1)) oneCall := by
  have recent : (Runs.run (Logging.step 50) (.init : Logging Bool Unit)
      (logOne ++ [.log true () 0 7, .go true 7])).Recent [] :=
    Runs.run_always (fun s : Logging Bool Unit => s.Recent [])
      (fun _ action recent => Logging.step_recent recent action) Logging.init_recent _
  have quiet : (Runs.run (Logging.step 50) (.init : Logging Bool Unit)
      (logOne ++ [.log true () 0 7, .go true 7])).Quiet := by
    intro p
    cases p <;> rfl
  have inTime : ∀ logdict ∈ (Runs.run (Logging.step 50) (.init : Logging Bool Unit)
      (logOne ++ [.log true () 0 7, .go true 7])).logged,
      0 ≤ logdict.epoch ∧ logdict.epoch ≤ 8 := by
    decide
  refine ⟨⟨trivial, by simp⟩, ⟨trivial, by simp⟩, ⟨?_, by simp⟩, ⟨?_, ?_⟩, ⟨?_, ?_⟩, trivial⟩
  · intro m isMark
    cases isMark
    decide
  · intro m isMark
    cases isMark
    decide
  · intro _ w isTail
    cases isTail
    refine ⟨?_, fun _ => arrived_of_quiet recent quiet rfl inTime⟩
    intro l isLast
    cases isLast
    decide
  · intro m isMark
    cases isMark
    decide
  · intro _ w isTail
    cases isTail
    refine ⟨?_, fun _ => arrived_of_quiet recent quiet rfl inTime⟩
    intro l isLast
    cases isLast
    decide

theorem known_logOne : ∀ l ∈ some 1,
    0 < l ∧ l ≤ (Runs.run (Logging.step 50) (.init : Logging Bool Unit) logOne).incr := by
  intro l isFirst
  cases isFirst
  decide

theorem run_followed_oneCall :
    (Runs.run (step 50) (begin (Runs.run (Logging.step 50) .init logOne) (some 1))
      oneCall).Followed (some 1) :=
  run_followed known_logOne sound_oneCall

/-- The second message is on its way when the client reads the third one. -/
def overtakenCall : List (Action Bool Unit) :=
  [.log (.log false () 0 7), .log (.log true () 0 7), .log (.go true 7), .tail_get 200 7,
    .read, .read, .read, .log (.go false 7), .tail_get 200 7, .read]

theorem paced_overtakenCall : Stateful.Along Paced (step 50)
    (begin (Runs.run (Logging.step 50) .init logOne) (some 1)) overtakenCall := by
  refine ⟨trivial, trivial, trivial, ?_, ?_, ?_, ?_, trivial, ?_, ?_, trivial⟩
  all_goals
    intro m isMark
    cases isMark
    decide

/-- A message that is stored behind a later one is never given. -/
theorem tail_misses_message :
    ¬ ∀ (before : List (Logging.Action Bool Unit)) (first : Option Nat)
        (actions : List (Action Bool Unit)),
      (∀ l ∈ first, 0 < l ∧ l ≤ (Runs.run (Logging.step 50) .init before).incr) →
        Stateful.Along Paced (step 50)
            (begin (Runs.run (Logging.step 50) .init before) first) actions →
          (Runs.run (step 50) (begin (Runs.run (Logging.step 50) .init before) first)
            actions).Followed first := by
  intro always
  have followed := always logOne (some 1) overtakenCall known_logOne paced_overtakenCall
  have given := followed.complete 1 rfl 3 rfl ⟨2, 7, ()⟩ (by decide) (by decide) (by decide)
  exact absurd given (by decide)

end Following

end JumpscaleX.Logs
