import JumpscaleX.LogConservation

/-!
# Every log message in one place

When nobody is in the middle of a call, the hash holds the newest messages and
the files hold the others, a thousand each.
-/

namespace JumpscaleX.Logs

namespace Logging

variable {P M : Type}

/-- The redis keys and the files as completed calls leave them. -/
structure Settled (s : Logging P M) : Prop where
  numbered : s.Numbered
  filed : ∀ index file, (s.rotated ++ s.containers)[index]? = some file →
    file.stopid = 1000 * (index + 1) ∧ file.logs = segment s.logged index
  held : ∀ id logdict, s.data.lookup id = some logdict ↔
    logdict ∈ s.logged ∧ logdict.id = id ∧ 1000 * s.written < id
  recent : s.written = s.incr / 1000 - 1
  newest : 0 < s.written → s.containers ≠ []

theorem Consistent.settled {s : Logging P M} (consistent : s.Consistent) (quiet : s.Quiet) :
    s.Settled where
  numbered := consistent.numbered
  filed := consistent.filed
  held := by
    intro id logdict
    constructor
    · intro found
      obtain ⟨member, same⟩ := consistent.stored id logdict found
      refine ⟨member, same, Nat.lt_of_not_le ?_⟩
      intro early
      rcases consistent.cleaned id logdict found early with ⟨p, ⟨_, at_, _⟩ | ⟨_, at_, _⟩⟩
      · cases (quiet p).symm.trans at_
      · cases (quiet p).symm.trans at_
    · rintro ⟨member, same, late⟩
      rw [← same] at late ⊢
      rcases consistent.kept logdict member late with found | ⟨p, at_⟩
      · exact found
      · cases (quiet p).symm.trans at_
  recent := by
    have enough := consistent.enough
    have complete : ¬ 1000 * (s.written + 2) ≤ s.incr := by
      intro more
      rcases consistent.pending s.written (Nat.le_refl _) more with ⟨p, ⟨_, at_, _⟩ | ⟨_, at_⟩⟩
      · cases (quiet p).symm.trans at_
      · cases (quiet p).symm.trans at_
    rcases Nat.eq_zero_or_pos s.written with none | some
    · omega
    · have := enough some
      omega
  newest := consistent.newest

section Facts

variable {s : Logging P M}

theorem Numbered.mem_segment_iff (numbered : s.Numbered) {container : Nat}
    {logdict : LogDict M} :
    logdict ∈ segment s.logged container ↔
      logdict ∈ s.logged ∧ 1000 * container < logdict.id ∧
        logdict.id ≤ 1000 * (container + 1) := by
  constructor
  · intro member
    obtain ⟨index, found⟩ := List.mem_iff_getElem?.mp member
    have below : index < 1000 := by
      have := (List.getElem?_eq_some_iff.mp found).1
      rw [segment, List.length_take] at this
      omega
    rw [segment_getElem? below] at found
    have id := numbered.id_of_getElem? found
    exact ⟨List.mem_of_getElem? found, by omega, by omega⟩
  · rintro ⟨member, after, upTo⟩
    obtain ⟨_, _, found⟩ := numbered.getElem?_of_mem member
    have place : 1000 * container + (logdict.id - 1 - 1000 * container) = logdict.id - 1 := by
      omega
    apply List.mem_of_getElem? (i := logdict.id - 1 - 1000 * container)
    rw [segment_getElem? (by omega), place, found]

theorem take_range' {start size length : Nat} (enough : size ≤ length) :
    (List.range' start length).take size = List.range' start size := by
  obtain ⟨more, rfl⟩ := Nat.exists_eq_add_of_le enough
  rw [← List.range'_append_1, List.take_left' List.length_range']

theorem Numbered.segment_ids (numbered : s.Numbered) (container : Nat)
    (enough : 1000 * (container + 1) ≤ s.incr) :
    (segment s.logged container).map LogDict.id = List.range' (1000 * container + 1) 1000 := by
  have long : 1000 ≤ s.incr - 1000 * container := by omega
  rw [segment, List.map_take, List.map_drop, numbered, List.drop_range', take_range' long,
    Nat.mul_one, Nat.add_comm]

/-- The files cover the ids up to the last one that was dumped. -/
theorem Settled.enough (settled : s.Settled) (some : 0 < s.written) :
    1000 * (s.written + 1) ≤ s.incr := by
  have := settled.recent
  omega

theorem Settled.file_at (settled : s.Settled) (index : Nat) (below : index < s.written) :
    ∃ file ∈ s.rotated ++ s.containers, file.stopid = 1000 * (index + 1) ∧
      file.logs = segment s.logged index := by
  rw [written_eq] at below
  have found := List.getElem?_eq_getElem below
  exact ⟨_, List.getElem_mem below, settled.filed index _ found⟩

theorem Settled.index_of_file (settled : s.Settled) {file : Container M}
    (member : file ∈ s.rotated ++ s.containers) :
    ∃ index < s.written, (s.rotated ++ s.containers)[index]? = some file ∧
      file.stopid = 1000 * (index + 1) ∧ file.logs = segment s.logged index := by
  obtain ⟨index, found⟩ := List.mem_iff_getElem?.mp member
  refine ⟨index, ?_, found, settled.filed index file found⟩
  rw [written_eq]
  exact (List.getElem?_eq_some_iff.mp found).1

end Facts

/-! ## Where the messages are -/

/-- The oldest containers are rotated away first, and never the newest one. -/
structure RotatesOldest (s : Logging P M) : Prop where
  oldest : ∀ old ∈ s.rotated, ∀ file ∈ s.containers, old.stopid < file.stopid
  newest : ∀ file ∈ (s.rotated ++ s.containers).getLast?, file ∈ s.containers

/-- Every message is in the hash or in one container, which may have been rotated
away; containers hold a thousand messages in a row, and the hash holds the newest
ones. -/
structure Accounted (s : Logging P M) : Prop where
  unique : (s.logged.map LogDict.id).Nodup
  placed : ∀ logdict ∈ s.logged,
    (s.data.lookup logdict.id = some logdict ∧
        ∀ file ∈ s.rotated ++ s.containers, logdict ∉ file.logs) ∨
      (s.data.lookup logdict.id = none ∧
        ∃! file, file ∈ s.rotated ++ s.containers ∧ logdict ∈ file.logs)
  whole : ∀ file ∈ s.containers,
    file.logs.map LogDict.id = List.range' (file.stopid - 1000 + 1) 1000
  recent : ∃ kept, (∀ id, (s.data.lookup id).isSome ↔ s.incr - kept < id ∧ id ≤ s.incr) ∧
    kept < 2000 ∧ (1000 ≤ kept ∨ kept = s.incr)

theorem rotatesOldest {s : Logging P M}
    (filed : ∀ index file, (s.rotated ++ s.containers)[index]? = some file →
      file.stopid = 1000 * (index + 1) ∧ file.logs = segment s.logged index)
    (newest : 0 < s.written → s.containers ≠ []) : s.RotatesOldest where
  oldest := by
    intro old oldMember file member
    obtain ⟨first, oldFound⟩ := List.mem_iff_getElem?.mp oldMember
    obtain ⟨second, found⟩ := List.mem_iff_getElem?.mp member
    have before : first < s.rotated.length := (List.getElem?_eq_some_iff.mp oldFound).1
    have oldStop := (filed first old (by rw [List.getElem?_append_left before, oldFound])).1
    have stop := (filed (s.rotated.length + second) file (by
      rw [List.getElem?_append_right (Nat.le_add_right _ _), Nat.add_sub_cancel_left, found])).1
    omega
  newest := by
    intro file last
    rcases Nat.eq_zero_or_pos s.written with none | some
    · rw [written_eq, List.length_eq_zero_iff] at none
      rw [none] at last
      cases last
    · rw [List.getLast?_append_of_ne_nil _ (newest some)] at last
      exact List.mem_of_getLast? last

theorem Settled.accounted {s : Logging P M} (settled : s.Settled) : s.Accounted where
  unique := by
    rw [settled.numbered]
    exact List.nodup_range'
  placed := by
    intro logdict member
    obtain ⟨positive, given, _⟩ := settled.numbered.getElem?_of_mem member
    rcases Nat.lt_or_ge (1000 * s.written) logdict.id with late | early
    · left
      refine ⟨(settled.held _ _).mpr ⟨member, rfl, late⟩, ?_⟩
      intro file inFiles inFile
      obtain ⟨index, below, _, _, logs⟩ := settled.index_of_file inFiles
      rw [logs, settled.numbered.mem_segment_iff] at inFile
      omega
    · right
      constructor
      · rw [Option.eq_none_iff_forall_ne_some]
        intro other found
        obtain ⟨_, same, late⟩ := (settled.held _ _).mp found
        omega
      · obtain ⟨file, inFiles, stop, logs⟩ :=
          settled.file_at ((logdict.id - 1) / 1000) (by omega)
        refine ⟨file, ⟨inFiles, ?_⟩, ?_⟩
        · rw [logs, settled.numbered.mem_segment_iff]
          exact ⟨member, by omega, by omega⟩
        · rintro other ⟨otherInFiles, inOther⟩
          obtain ⟨index, _, found, _, otherLogs⟩ := settled.index_of_file otherInFiles
          obtain ⟨index', _, found', stop', _⟩ := settled.index_of_file inFiles
          rw [otherLogs, settled.numbered.mem_segment_iff] at inOther
          have same : index = index' := by omega
          rw [same, found'] at found
          exact (Option.some.inj found).symm
  whole := by
    intro file member
    obtain ⟨index, below, _, stop, logs⟩ :=
      settled.index_of_file (List.mem_append_right s.rotated member)
    have enough := settled.enough (Nat.zero_lt_of_lt below)
    have start : 1000 * (index + 1) - 1000 = 1000 * index := by omega
    rw [logs, settled.numbered.segment_ids index (by omega), stop, start]
  recent := by
    have recent := settled.recent
    refine ⟨s.incr - 1000 * s.written, ?_, by omega, by omega⟩
    intro id
    rw [Option.isSome_iff_exists]
    constructor
    · rintro ⟨logdict, found⟩
      obtain ⟨member, same, late⟩ := (settled.held _ _).mp found
      obtain ⟨_, given, _⟩ := settled.numbered.getElem?_of_mem member
      omega
    · rintro ⟨late, given⟩
      obtain ⟨logdict, member, same⟩ := settled.numbered.getElem?_isSome id
        (by omega) given
      exact ⟨logdict, (settled.held _ _).mpr ⟨member, same, by omega⟩⟩

section Runs

variable [DecidableEq P]

/-- One process that logs one message. -/
def oneMessage : List (Action Unit Unit) :=
  [.log () () 0 7, .go () 7]

theorem sound_oneMessage : Stateful.Along (Sound 50) (step 50) init oneMessage := by
  refine ⟨trivial, ?_, trivial⟩
  intro latest_id r reading
  cases reading

end Runs

/-! ## A message that is overtaken -/

/-- One process has its first id and stores nothing, the other one has logged up
to a number of messages. -/
structure Overtaking (n : Nat) (s : Logging Bool Unit) : Prop where
  incr : s.incr = n
  first : s.data.lookup 1 = none
  stage : s.stage true = if n = 2000 then .reading 2000 [] else .idle
  failed : s.failed = []

theorem overtaking_log {n : Nat} {s : Logging Bool Unit} (overtaking : Overtaking n s)
    (positive : 0 < n) (below : n < 2000) :
    Overtaking (n + 1) (Runs.run (step 50) s [.log true () 0 0, .go true 0]) := by
  have idle : s.stage true = .idle := by
    rw [overtaking.stage, if_neg (Nat.ne_of_lt below)]
  have counted := overtaking.incr
  have logged : s.step 50 (.log true () 0 0) = s.handle_log true () 0 0 := by
    rw [step, idle]
  have stored : (s.handle_log true () 0 0).step 50 (.go true 0) =
      (s.handle_log true () 0 0).hset true ⟨s.incr + 1, 0, ()⟩ := rfl
  rw [Runs.run_cons, logged, Runs.run_cons, stored, Runs.run_nil]
  constructor
  case incr => exact congrArg (· + 1) counted
  case first =>
    have other : 1 ≠ s.incr + 1 := by omega
    exact (OrderedMap.lookup_insert_of_ne s.data other _).trans overtaking.first
  case stage =>
    have dumps : Dumps (s.incr + 1) ↔ n + 1 = 2000 := by
      rw [Dumps]
      omega
    refine (goTo_stage_self _ _ _).trans ?_
    by_cases last : n + 1 = 2000
    · rw [if_pos (dumps.mpr last), if_pos last, counted, last]
    · rw [if_neg (fun full => last (dumps.mp full)), if_neg last]
  case failed => exact overtaking.failed

/-- The messages of the other process. -/
def manyLogs : Nat → List (Action Bool Unit)
  | 0 => []
  | n + 1 => manyLogs n ++ [.log true () 0 0, .go true 0]

theorem overtaking_manyLogs {s : Logging Bool Unit} (overtaking : Overtaking 1 s) (n : Nat)
    (below : n < 2000) : Overtaking (n + 1) (Runs.run (step 50) s (manyLogs n)) := by
  induction n with
  | zero => exact overtaking
  | succ n induction =>
      rw [manyLogs, Runs.run_append]
      exact overtaking_log (induction (Nat.lt_of_succ_lt below)) (Nat.succ_pos n) below

theorem overtaking_fails {s : Logging Bool Unit} (overtaking : Overtaking 2000 s) :
    (s.step 50 (.go true 0)).failed ≠ [] := by
  have reading : s.stage true = .reading 2000 [] := by
    rw [overtaking.stage, if_pos rfl]
  have next : 2000 - 2000 + 1 + ([] : List (LogDict Unit)).length = 1 := by decide
  have failing : s._redis_get true 2000 [] =
      { s with failed := s.failed ++ [2000] }.goTo true .idle := by
    rw [_redis_get, next, overtaking.first]
  rw [step, go, reading]
  show (s._redis_get true 2000 []).failed ≠ []
  rw [failing, goTo_failed]
  exact List.append_ne_nil_of_right_ne_nil s.failed (List.cons_ne_nil 2000 [])

end Logging

end JumpscaleX.Logs
