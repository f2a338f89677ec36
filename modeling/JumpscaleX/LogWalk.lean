import JumpscaleX.Library.Selection
import JumpscaleX.LoggedOnce
import JumpscaleX.LoggerClient

/-!
# Walking the logs

Which of the retained messages a walk hands to its method, and when these are
the ones that it was asked for.
-/

namespace JumpscaleX.Logs

open Selection

variable {P M : Type}

namespace Logging

/-! ## The loops -/

/-- What the loop over messages hands to the method, if it goes on long enough. -/
def Wanted (query : Query) (id_from : Int) (logdict : LogDict M) : Prop :=
  ¬ (id_from ≠ 0 ∧ (logdict.id : Int) < id_from) ∧ query.InTime logdict

instance (query : Query) (id_from : Int) : DecidablePred (Wanted (M := M) query id_from) :=
  fun logdict => inferInstanceAs
    (Decidable (¬ (id_from ≠ 0 ∧ (logdict.id : Int) < id_from) ∧ query.InTime logdict))

/-- How a loop over messages ends that has so much room left: it hands over the
first of the wanted ones, and returns when they do not fit. -/
structure Walked (wanted visited : List (LogDict M)) (room : Nat) (nrdone : Int)
    (left : Option Int) : Prop where
  visited : visited = wanted.take room
  stopped : left = none → room ≤ wanted.length
  goesOn : ∀ count, left = some count → wanted.length ≤ room ∧ count = nrdone + wanted.length

theorem walkLogs_walked (query : Query) (id_from nrdone : Int) (logs : List (LogDict M)) :
    Walked (logs.filter fun logdict => Wanted query id_from logdict)
      (walkLogs query id_from nrdone logs).1 (query.maxitems + 1 - nrdone).toNat nrdone
      (walkLogs query id_from nrdone logs).2 := by
  induction logs generalizing nrdone with
  | nil =>
      constructor
      · rw [walkLogs, List.filter_nil, List.take_nil]
      · intro stopped
        cases stopped
      · intro count goesOn
        cases goesOn
        exact ⟨Nat.zero_le _, by simp⟩
  | cons logdict rest induction =>
      rw [walkLogs]
      by_cases full : query.maxitems < nrdone
      · have none : (query.maxitems + 1 - nrdone).toNat = 0 := by omega
        rw [if_pos full, none]
        constructor
        · rw [List.take_zero]
        · intro _
          exact Nat.zero_le _
        · intro count goesOn
          cases goesOn
      · rw [if_neg full]
        by_cases early : id_from ≠ 0 ∧ (logdict.id : Int) < id_from
        · have unwanted : ¬ Wanted query id_from logdict := fun wanted => wanted.1 early
          rw [if_pos early, List.filter_cons_of_neg (by simpa using unwanted)]
          exact induction nrdone
        · rw [if_neg early]
          by_cases inTime : query.InTime logdict
          · have wanted : Wanted query id_from logdict := ⟨early, inTime⟩
            have room : (query.maxitems + 1 - nrdone).toNat =
                (query.maxitems + 1 - (nrdone + 1)).toNat + 1 := by omega
            have later := induction (nrdone + 1)
            rw [if_pos inTime, List.filter_cons_of_pos (by simpa using wanted), room]
            constructor
            · rw [List.take_succ_cons, ← later.visited]
            · intro stopped
              rw [List.length_cons]
              exact Nat.succ_le_succ (later.stopped stopped)
            · intro count goesOn
              obtain ⟨fits, counted⟩ := later.goesOn count goesOn
              rw [List.length_cons]
              exact ⟨Nat.succ_le_succ fits, by omega⟩
          · have unwanted : ¬ Wanted query id_from logdict := fun wanted => inTime wanted.2
            rw [if_neg inTime, List.filter_cons_of_neg (by simpa using unwanted)]
            exact induction nrdone

/-- Two loops in a row. -/
theorem Walked.append {first second visited later : List (LogDict M)} {nrdone count maxitems : Int}
    {left : Option Int}
    (earlier : Walked first visited (maxitems + 1 - nrdone).toNat nrdone (some count))
    (rest : Walked second later (maxitems + 1 - count).toNat count left) :
    Walked (first ++ second) (visited ++ later) (maxitems + 1 - nrdone).toNat nrdone left := by
  obtain ⟨fits, counted⟩ := earlier.goesOn count rfl
  have room : (maxitems + 1 - count).toNat = (maxitems + 1 - nrdone).toNat - first.length := by
    omega
  constructor
  · rw [List.take_append, ← earlier.visited, ← room, ← rest.visited]
  · intro stopped
    have := rest.stopped stopped
    rw [List.length_append]
    omega
  · intro last goesOn
    obtain ⟨fits', counted'⟩ := rest.goesOn last goesOn
    rw [List.length_append]
    omega

/-- A loop that has returned has what it would have with more messages. -/
theorem Walked.stop {first visited : List (LogDict M)} {room : Nat} {nrdone : Int}
    (walked : Walked first visited room nrdone none) (second : List (LogDict M)) :
    Walked (first ++ second) visited room nrdone none := by
  have full := walked.stopped rfl
  constructor
  · rw [List.take_append_of_le_length full, ← walked.visited]
  · intro _
    rw [List.length_append]
    omega
  · intro count goesOn
    cases goesOn

theorem walkContainers_walked {s : Logging P M} (query : Query) {content : Nat → List (LogDict M)}
    {ids : List Nat} (found : ∀ id ∈ ids, s._data_container_get id = .ok (content id))
    (nrdone : Int) :
    ∃ visited left, s.walkContainers query nrdone ids = .ok (visited, left) ∧
      Walked ((ids.flatMap content).filter fun logdict => Wanted query query.id_from logdict)
        visited (query.maxitems + 1 - nrdone).toNat nrdone left := by
  induction ids generalizing nrdone with
  | nil =>
      refine ⟨[], some nrdone, rfl, ?_⟩
      exact walkLogs_walked query query.id_from nrdone []
  | cons id ids induction =>
      obtain ⟨first, rest⟩ := List.forall_mem_cons.mp found
      have walked := walkLogs_walked query query.id_from nrdone (content id)
      rw [List.flatMap_cons, List.filter_append]
      cases loop : walkLogs query query.id_from nrdone (content id) with
      | mk visited left =>
          rw [loop] at walked
          cases left with
          | none =>
              refine ⟨visited, none, ?_, walked.stop _⟩
              simp only [walkContainers, first, bind, Except.bind, loop]
          | some count =>
              obtain ⟨later, left, rest, tail⟩ := induction rest count
              refine ⟨visited ++ later, left, ?_, walked.append tail⟩
              simp only [walkContainers, first, bind, Except.bind, loop, rest]

/-- A walk hands over the first messages of its containers and of redis. -/
theorem walk_eq {s : Logging P M} {query : Query} {content : Nat → List (LogDict M)}
    (found : ∀ id ∈ s._data_container_ids_get_from_time query,
      s._data_container_get id = .ok (content id)) :
    s.walk query = .ok
      ((((s._data_container_ids_get_from_time query).flatMap content).filter
            (fun logdict => Wanted query query.id_from logdict) ++
          ((range (s.incr - 2000 - 1) s.incr).filterMap s.get).filter
            (fun logdict => Wanted query 0 logdict)).take query.maxitems.toNat) := by
  obtain ⟨visited, left, containers, walked⟩ := walkContainers_walked query found 1
  have room : (query.maxitems + 1 - 1).toNat = query.maxitems.toNat := by omega
  cases left with
  | none =>
      have whole := walked.stop
        (((range (s.incr - 2000 - 1) s.incr).filterMap s.get).filter
          (fun logdict => Wanted query 0 logdict))
      rw [walk, containers, ← room, ← whole.visited]
      rfl
  | some count =>
      have redis := walkLogs_walked query 0 count
        ((range (s.incr - 2000 - 1) s.incr).filterMap s.get)
      rw [walk, containers, ← room, ← (walked.append redis).visited]
      rfl

/-! ## What is asked for -/

/-- A message that the walk is asked for. -/
def Due (query : Query) (logdict : LogDict M) : Prop :=
  query.id_from ≤ logdict.id ∧ query.InTime logdict

instance (query : Query) : DecidablePred (Due (M := M) query) :=
  fun logdict => inferInstanceAs
    (Decidable (query.id_from ≤ logdict.id ∧ query.InTime logdict))

theorem wanted_iff_due {query : Query} {logdict : LogDict M} :
    Wanted query query.id_from logdict ↔ Due query logdict := by
  rw [Wanted, Due]
  apply and_congr_left
  intro _
  omega

/-- The messages in the container files and in redis. -/
def retained (s : Logging P M) : List (LogDict M) :=
  s.containers.flatMap Container.logs ++ s.data.entries.map Prod.snd

/-- The walk looks into a container that was created in time, or comes right
before the first of these. -/
def Reached (s : Logging P M) (query : Query) (file : Container M) : Prop :=
  Created query file ∨
    (∃ next ∈ s.containers, Created query next ∧ next.stopid = file.stopid + 1000) ∧
      ∀ other ∈ s.containers, Created query other → file.stopid < other.stopid

/-- The oldest container was created in time, and the one before it is gone. -/
def Gap (s : Logging P M) (query : Query) : Prop :=
  ∃ file ∈ s.containers, Created query file ∧ 1000 < file.stopid ∧
    ∀ other ∈ s.containers, file.stopid ≤ other.stopid

/-- The walk passes over a message in redis that it is asked for, because it is the
newest one, or hands over one that comes before the first id; or it is asked for a
message in a container that it does not look into. -/
def Misjudges (s : Logging P M) (query : Query) (logdict : LogDict M) : Prop :=
  (s.data.lookup logdict.id = some logdict ∧ query.InTime logdict ∧
      (logdict.id = s.incr ∧ query.id_from ≤ logdict.id ∨
        logdict.id ≠ s.incr ∧ (logdict.id : Int) < query.id_from)) ∨
    ∃ file ∈ s.containers, logdict ∈ file.logs ∧ Due query logdict ∧ ¬ s.Reached query file

/-! ## Settled stores -/

section Settled

variable {s : Logging P M}

theorem Settled.containers_at (settled : s.Settled) {file : Container M}
    (member : file ∈ s.containers) :
    ∃ index, s.rotated.length ≤ index ∧ index < s.written ∧
      file.stopid = 1000 * (index + 1) ∧ file.logs = segment s.logged index := by
  obtain ⟨place, found⟩ := List.mem_iff_getElem?.mp member
  have below : place < s.containers.length := (List.getElem?_eq_some_iff.mp found).1
  refine ⟨s.rotated.length + place, Nat.le_add_right _ _, ?_, ?_⟩
  · rw [written]
    omega
  · apply settled.filed
    rw [List.getElem?_append_right (Nat.le_add_right _ _), Nat.add_sub_cancel_left, found]

theorem Settled.container_of (settled : s.Settled) (index : Nat)
    (kept : s.rotated.length ≤ index) (below : index < s.written) :
    ∃ file ∈ s.containers, file.stopid = 1000 * (index + 1) ∧
      file.logs = segment s.logged index := by
  have place : index - s.rotated.length < s.containers.length := by
    rw [written] at below
    omega
  have found := List.getElem?_eq_getElem place
  refine ⟨_, List.getElem_mem place, ?_⟩
  apply settled.filed
  rw [List.getElem?_append_right kept, found]

theorem Settled.ascending_containers (settled : s.Settled) :
    Ascending Container.stopid s.containers := by
  rw [Ascending, List.pairwise_iff_getElem]
  intro first second firstBelow secondBelow before
  have stopid : ∀ place (below : place < s.containers.length),
      s.containers[place].stopid = 1000 * (s.rotated.length + place + 1) := by
    intro place below
    refine (settled.filed (s.rotated.length + place) _ ?_).1
    rw [List.getElem?_append_right (Nat.le_add_right _ _), Nat.add_sub_cancel_left,
      List.getElem?_eq_getElem below]
  rw [stopid first firstBelow, stopid second secondBelow]
  omega

theorem Settled.container_get (settled : s.Settled) {index : Nat}
    (kept : s.rotated.length ≤ index) (below : index < s.written) :
    s._data_container_get (index + 1) = .ok (segment s.logged index) := by
  obtain ⟨file, member, stopid, _⟩ := settled.container_of index kept below
  rw [_data_container_get]
  cases found : s.containers.find? fun file => decide (file.stopid = (index + 1) * 1000) with
  | none =>
      have absent := List.find?_eq_none.mp found file member
      rw [decide_eq_true_iff, stopid, Nat.mul_comm] at absent
      exact absurd rfl absent
  | some other =>
      obtain ⟨place, _, _, otherStop, logs⟩ :=
        settled.containers_at (List.mem_of_find?_eq_some found)
      have named : other.stopid = (index + 1) * 1000 := by
        simpa using List.find?_some found
      have same : place = index := by
        rw [Nat.mul_comm] at named
        omega
      have whole : (segment s.logged index).length = 1000 := by
        have enough := settled.enough (Nat.zero_lt_of_lt below)
        have ids := settled.numbered.segment_ids index (by omega)
        have length := congrArg List.length ids
        rwa [List.length_map, List.length_range'] at length
      simp only [logs, same, whole, if_true]

theorem container_get_missing {identifier : Nat}
    (missing : ∀ file ∈ s.containers, file.stopid ≠ identifier * 1000) :
    s._data_container_get identifier = .error (.cannotFind identifier) := by
  have none : s.containers.find? (fun file => decide (file.stopid = identifier * 1000)) =
      none := by
    rw [List.find?_eq_none]
    intro file member
    rw [decide_eq_true_iff]
    exact missing file member
  rw [_data_container_get, none]

theorem Numbered.ascending_logged (numbered : s.Numbered) : Ascending LogDict.id s.logged := by
  have ids : (s.logged.map LogDict.id).Pairwise (· < ·) := by
    rw [numbered]
    exact List.pairwise_lt_range'
  exact List.pairwise_map.mp ids

theorem Numbered.ascending_segment (numbered : s.Numbered) (container : Nat) :
    Ascending LogDict.id (segment s.logged container) :=
  (numbered.ascending_logged.sublist (List.drop_sublist _ _)).sublist (List.take_sublist _ _)

theorem Settled.mem_filed_iff (settled : s.Settled) {logdict : LogDict M} :
    logdict ∈ s.containers.flatMap Container.logs ↔
      logdict ∈ s.logged ∧ 1000 * s.rotated.length < logdict.id ∧
        logdict.id ≤ 1000 * s.written := by
  rw [List.mem_flatMap]
  constructor
  · rintro ⟨file, member, inFile⟩
    obtain ⟨index, kept, below, _, logs⟩ := settled.containers_at member
    rw [logs, settled.numbered.mem_segment_iff] at inFile
    exact ⟨inFile.1, by omega, by omega⟩
  · rintro ⟨member, after, upTo⟩
    obtain ⟨file, inFiles, _, logs⟩ := settled.container_of
      ((logdict.id - 1) / 1000) (by omega) (by omega)
    refine ⟨file, inFiles, ?_⟩
    rw [logs, settled.numbered.mem_segment_iff]
    exact ⟨member, by omega, by omega⟩

theorem Settled.mem_redis_iff (settled : s.Settled) {logdict : LogDict M} :
    logdict ∈ s.data.entries.map Prod.snd ↔
      logdict ∈ s.logged ∧ 1000 * s.written < logdict.id := by
  rw [List.mem_map]
  constructor
  · rintro ⟨⟨id, other⟩, member, same⟩
    change other = logdict at same
    subst same
    obtain ⟨inLog, isId, late⟩ := (settled.held id other).mp (OrderedMap.lookup_eq_some_iff.mpr member)
    exact ⟨inLog, isId ▸ late⟩
  · rintro ⟨member, late⟩
    have found := (settled.held logdict.id logdict).mpr ⟨member, rfl, late⟩
    exact ⟨(logdict.id, logdict), OrderedMap.lookup_eq_some_iff.mp found, rfl⟩

theorem Settled.mem_retained_iff (settled : s.Settled) {logdict : LogDict M} :
    logdict ∈ s.retained ↔ logdict ∈ s.logged ∧ 1000 * s.rotated.length < logdict.id := by
  have rotated : s.rotated.length ≤ s.written := Nat.le_add_right _ _
  rw [retained, List.mem_append, settled.mem_filed_iff, settled.mem_redis_iff]
  constructor
  · rintro (⟨member, after, _⟩ | ⟨member, late⟩)
    · exact ⟨member, after⟩
    · exact ⟨member, by omega⟩
  · rintro ⟨member, after⟩
    rcases Nat.lt_or_ge (1000 * s.written) logdict.id with late | early
    · exact .inr ⟨member, late⟩
    · exact .inl ⟨member, after, early⟩

theorem Settled.ascending_redis (settled : s.Settled) :
    Ascending LogDict.id (s.data.entries.map Prod.snd) := by
  rw [Ascending, List.pairwise_map]
  refine s.data.sorted.imp_of_mem ?_
  intro first second firstMember secondMember below
  have firstId := ((settled.held _ _).mp (OrderedMap.lookup_eq_some_iff.mpr firstMember)).2.1
  have secondId := ((settled.held _ _).mp (OrderedMap.lookup_eq_some_iff.mpr secondMember)).2.1
  rw [firstId, secondId]
  exact below

/-- Containers one after the other, each in ascending order. -/
theorem ascending_flatMap_segment (numbered : s.Numbered) {indices : List Nat}
    (ascending : indices.Pairwise (· < ·)) :
    Ascending LogDict.id (indices.flatMap (segment s.logged)) := by
  rw [Ascending, List.pairwise_flatMap]
  refine ⟨fun index _ => numbered.ascending_segment index, ?_⟩
  refine ascending.imp ?_
  intro first second before left leftMember right rightMember
  rw [numbered.mem_segment_iff] at leftMember rightMember
  omega

theorem Settled.ascending_retained (settled : s.Settled) :
    Ascending LogDict.id s.retained := by
  have filed : s.containers.flatMap Container.logs =
      (List.range' s.rotated.length s.containers.length).flatMap (segment s.logged) := by
    have logs : s.containers.map Container.logs =
        (List.range' s.rotated.length s.containers.length).map (segment s.logged) := by
      apply List.ext_getElem
      · simp
      · intro place below _
        rw [List.getElem_map, List.getElem_map, List.getElem_range', Nat.one_mul]
        rw [List.length_map] at below
        refine (settled.filed (s.rotated.length + place) _ ?_).2
        rw [List.getElem?_append_right (Nat.le_add_right _ _), Nat.add_sub_cancel_left,
          List.getElem?_eq_getElem below]
    rw [List.flatMap_def, List.flatMap_def, logs]
  rw [retained, ascending_append]
  refine ⟨?_, settled.ascending_redis, ?_⟩
  · rw [filed]
    exact ascending_flatMap_segment settled.numbered List.pairwise_lt_range'
  · intro first firstMember second secondMember
    rw [settled.mem_filed_iff] at firstMember
    rw [settled.mem_redis_iff] at secondMember
    omega

/-! ## The containers that are looked into -/

/-- The numbers of the containers that were created in time. -/
def numbers (s : Logging P M) (query : Query) : List Nat :=
  ((s.containers.filter (fun file => Created query file)).map
    (fun file => file.stopid / 1000)).dedup.mergeSort

theorem mem_numbers_iff {query : Query} {number : Nat} :
    number ∈ s.numbers query ↔
      ∃ file ∈ s.containers, Created query file ∧ file.stopid / 1000 = number := by
  rw [numbers, List.mem_mergeSort, List.mem_dedup, List.mem_map]
  simp only [List.mem_filter, decide_eq_true_eq, and_assoc]

theorem ascending_numbers (query : Query) : (s.numbers query).Pairwise (· < ·) := by
  have sorted : (s.numbers query).Pairwise (· ≤ ·) := by
    have sorted : (s.numbers query).Pairwise fun left right => decide (left ≤ right) = true := by
      apply List.pairwise_mergeSort
      · intro left middle right
        simpa using Nat.le_trans
      · intro left right
        simpa using Nat.le_total left right
    simpa only [decide_eq_true_eq] using sorted
  have distinct : (s.numbers query).Nodup := by
    rw [numbers, (List.mergeSort_perm _ _).nodup_iff]
    exact List.nodup_dedup _
  exact (sorted.and distinct).imp fun both => Nat.lt_of_le_of_ne both.1 both.2

theorem ids_eq (query : Query) :
    s._data_container_ids_get_from_time query =
      match s.numbers query with
      | [] => []
      | first :: rest => if 1 < first then (first - 1) :: first :: rest else first :: rest := by
  rw [_data_container_ids_get_from_time]
  show (match s.numbers query with
    | [] => []
    | first :: _ => if 1 < first then (first - 1) :: s.numbers query else s.numbers query) = _
  cases s.numbers query <;> rfl

theorem ascending_ids (query : Query) :
    (s._data_container_ids_get_from_time query).Pairwise (· < ·) := by
  have ascending := ascending_numbers (s := s) query
  rw [ids_eq]
  cases found : s.numbers query with
  | nil => exact List.Pairwise.nil
  | cons first rest =>
      rw [found] at ascending
      show (if 1 < first then (first - 1) :: first :: rest else first :: rest).Pairwise (· < ·)
      split
      · refine List.Pairwise.cons ?_ ascending
        intro number member
        rcases List.mem_cons.mp member with same | later
        · omega
        · have := (List.pairwise_cons.mp ascending).1 number later
          omega
      · exact ascending

theorem Settled.mem_ids_iff (settled : s.Settled) {query : Query} (closed : ¬ s.Gap query)
    {number : Nat} :
    number ∈ s._data_container_ids_get_from_time query ↔
      ∃ file ∈ s.containers, file.stopid = 1000 * number ∧ s.Reached query file := by
  have ascending := ascending_numbers (s := s) query
  have created : ∀ {number : Nat}, number ∈ s.numbers query ↔
      ∃ file ∈ s.containers, file.stopid = 1000 * number ∧ Created query file := by
    intro number
    rw [mem_numbers_iff]
    constructor
    · rintro ⟨file, member, inTime, same⟩
      obtain ⟨_, _, _, stopid, _⟩ := settled.containers_at member
      exact ⟨file, member, by omega, inTime⟩
    · rintro ⟨file, member, stopid, inTime⟩
      exact ⟨file, member, inTime, by omega⟩
  rw [ids_eq]
  cases found : s.numbers query with
  | nil =>
      constructor
      · intro member
        cases member
      · rintro ⟨file, member, stopid, inTime | ⟨⟨next, nextMember, inTime, _⟩, _⟩⟩
        · have none := created.mpr ⟨file, member, stopid, inTime⟩
          rw [found] at none
          cases none
        · have none := mem_numbers_iff.mpr ⟨next, nextMember, inTime, rfl⟩
          rw [found] at none
          cases none
  | cons first rest =>
      have least : ∀ other ∈ s.containers, Created query other → 1000 * first ≤ other.stopid := by
        intro other member inTime
        obtain ⟨place, _, _, stopid, _⟩ := settled.containers_at member
        have isNumber := mem_numbers_iff.mpr ⟨other, member, inTime, rfl⟩
        rw [found] at isNumber ascending
        rcases List.mem_cons.mp isNumber with same | later
        · omega
        · have := (List.pairwise_cons.mp ascending).1 _ later
          omega
      obtain ⟨oldest, oldestMember, oldestStop, oldestInTime⟩ :=
        created.mp (show first ∈ s.numbers query by rw [found]; exact List.mem_cons_self)
      show number ∈ (if 1 < first then (first - 1) :: first :: rest else first :: rest) ↔ _
      by_cases more : 1 < first
      · rw [if_pos more, List.mem_cons, ← found, created]
        constructor
        · rintro (isBefore | ⟨file, member, stopid, inTime⟩)
          · -- the oldest file there is comes before the first one in time
            have notOldest : ∃ other ∈ s.containers, other.stopid < oldest.stopid := by
              by_contra none
              refine closed ⟨oldest, oldestMember, oldestInTime, by omega, ?_⟩
              intro other member
              exact Nat.not_lt.mp (fun before => none ⟨other, member, before⟩)
            obtain ⟨other, otherMember, before⟩ := notOldest
            obtain ⟨index, kept, _, otherStop, _⟩ := settled.containers_at otherMember
            obtain ⟨index', _, below', oldestStop', _⟩ := settled.containers_at oldestMember
            obtain ⟨file, member, stopid, _⟩ := settled.container_of (first - 2)
              (by omega) (by omega)
            refine ⟨file, member, by omega, .inr ⟨⟨oldest, oldestMember, oldestInTime, by omega⟩, ?_⟩⟩
            intro next nextMember inTime
            have := least next nextMember inTime
            omega
          · exact ⟨file, member, stopid, .inl inTime⟩
        · rintro ⟨file, member, stopid, inTime | ⟨⟨next, nextMember, inTime, follows⟩, before⟩⟩
          · exact .inr ⟨file, member, stopid, inTime⟩
          · left
            have afterFirst := least next nextMember inTime
            have beforeFirst := before oldest oldestMember oldestInTime
            obtain ⟨place, _, _, nextStop, _⟩ := settled.containers_at nextMember
            omega
      · rw [if_neg more, ← found, created]
        constructor
        · rintro ⟨file, member, stopid, inTime⟩
          exact ⟨file, member, stopid, .inl inTime⟩
        · rintro ⟨file, member, stopid, inTime | ⟨_, before⟩⟩
          · exact ⟨file, member, stopid, inTime⟩
          · have beforeFirst := before oldest oldestMember oldestInTime
            obtain ⟨place, _, _, fileStop, _⟩ := settled.containers_at member
            omega

theorem Settled.ids_found (settled : s.Settled) {query : Query} (closed : ¬ s.Gap query) :
    ∀ number ∈ s._data_container_ids_get_from_time query,
      s._data_container_get number = .ok (segment s.logged (number - 1)) := by
  intro number member
  obtain ⟨file, inFiles, stopid, _⟩ := (settled.mem_ids_iff closed).mp member
  obtain ⟨index, kept, below, isStop, _⟩ := settled.containers_at inFiles
  have same : number = index + 1 := by omega
  rw [same, Nat.add_sub_cancel]
  exact settled.container_get kept below

/-- Behind a gap the walk raises. -/
theorem Settled.walk_gap (settled : s.Settled) {query : Query} (gap : s.Gap query) :
    ∃ number, s.walk query = .error (.cannotFind number) := by
  obtain ⟨oldest, member, inTime, late, least⟩ := gap
  obtain ⟨place, _, _, stopid, _⟩ := settled.containers_at member
  have isNumber := mem_numbers_iff.mpr ⟨oldest, member, inTime, rfl⟩
  have ascending := ascending_numbers (s := s) query
  cases found : s.numbers query with
  | nil =>
      rw [found] at isNumber
      cases isNumber
  | cons first rest =>
      have isFirst : first = oldest.stopid / 1000 := by
        obtain ⟨file, inFiles, _, same⟩ := mem_numbers_iff.mp
          (show first ∈ s.numbers query by rw [found]; exact List.mem_cons_self)
        have notBefore := least file inFiles
        rw [found] at isNumber ascending
        rcases List.mem_cons.mp isNumber with same | later
        · exact same.symm
        · have := (List.pairwise_cons.mp ascending).1 _ later
          obtain ⟨_, _, _, fileStop, _⟩ := settled.containers_at inFiles
          omega
      have ids : s._data_container_ids_get_from_time query = (first - 1) :: first :: rest := by
        rw [ids_eq, found]
        exact if_pos (by omega)
      have missing : s._data_container_get (first - 1) = .error (.cannotFind (first - 1)) := by
        apply container_get_missing
        intro file inFiles same
        have notBefore := least file inFiles
        omega
      refine ⟨first - 1, ?_⟩
      rw [walk, ids, walkContainers, missing]
      rfl

/-! ## Redis -/

theorem mem_range_iff {start stop number : Int} :
    number ∈ range start stop ↔ start ≤ number ∧ number < stop := by
  rw [range, List.mem_map]
  constructor
  · rintro ⟨offset, member, same⟩
    have := List.mem_range.mp member
    omega
  · rintro ⟨after, before⟩
    exact ⟨(number - start).toNat, List.mem_range.mpr (by omega), by omega⟩

theorem ascending_range (start stop : Int) : (range start stop).Pairwise (· < ·) := by
  rw [range, List.pairwise_map]
  exact List.pairwise_lt_range.imp fun below => by omega

theorem get_eq_some_iff {number : Int} {logdict : LogDict M} :
    s.get number = some logdict ↔
      ∃ identifier : Nat, number = identifier ∧ s.data.lookup identifier = some logdict := by
  cases number with
  | ofNat identifier =>
      constructor
      · intro found
        exact ⟨identifier, rfl, found⟩
      · rintro ⟨other, same, found⟩
        cases Int.ofNat.inj same
        exact found
  | negSucc identifier =>
      constructor
      · intro found
        cases found
      · rintro ⟨other, same, _⟩
        cases same

/-- The loop over redis comes to every message there but the newest one. -/
theorem Settled.redis_eq (settled : s.Settled) :
    (range (s.incr - 2000 - 1) s.incr).filterMap s.get =
      (s.data.entries.map Prod.snd).filter (fun logdict => logdict.id ≠ s.incr) := by
  have recent := settled.recent
  refine Ascending.ext (show Ascending LogDict.id _ from ?_) ?_ ?_
  · rw [Ascending, List.pairwise_filterMap]
    refine (ascending_range _ _).imp ?_
    intro first second below left leftFound right rightFound
    obtain ⟨leftId, isLeft, leftFound⟩ := get_eq_some_iff.mp leftFound
    obtain ⟨rightId, isRight, rightFound⟩ := get_eq_some_iff.mp rightFound
    have leftSame := ((settled.held _ _).mp leftFound).2.1
    have rightSame := ((settled.held _ _).mp rightFound).2.1
    omega
  · exact settled.ascending_redis.filter _
  · intro logdict
    rw [List.mem_filterMap, List.mem_filter, settled.mem_redis_iff, decide_eq_true_iff]
    constructor
    · rintro ⟨number, member, found⟩
      obtain ⟨identifier, isNumber, found⟩ := get_eq_some_iff.mp found
      obtain ⟨inLog, same, late⟩ := (settled.held _ _).mp found
      have inRange := mem_range_iff.mp member
      exact ⟨⟨inLog, by omega⟩, by omega⟩
    · rintro ⟨⟨inLog, late⟩, notNewest⟩
      obtain ⟨_, given, _⟩ := settled.numbered.getElem?_of_mem inLog
      refine ⟨logdict.id, mem_range_iff.mpr ⟨by omega, by omega⟩, ?_⟩
      exact get_eq_some_iff.mpr ⟨logdict.id, rfl, (settled.held _ _).mpr ⟨inLog, rfl, late⟩⟩

/-! ## The whole walk -/

/-- What the walk hands over, of the retained messages. -/
def Visits (s : Logging P M) (query : Query) (logdict : LogDict M) : Prop :=
  (s.data.lookup logdict.id = some logdict ∧ logdict.id ≠ s.incr ∧ query.InTime logdict) ∨
    ∃ file ∈ s.containers, logdict ∈ file.logs ∧ s.Reached query file ∧ Due query logdict

open Classical in
theorem Settled.walk_closed (settled : s.Settled) {query : Query} (closed : ¬ s.Gap query) :
    s.walk query =
      .ok ((s.retained.filter fun logdict => s.Visits query logdict).take
        query.maxitems.toNat) := by
  rw [walk_eq (settled.ids_found closed), settled.redis_eq]
  have ids := ascending_ids (s := s) query
  have filed : ∀ {logdict : LogDict M},
      logdict ∈ (s._data_container_ids_get_from_time query).flatMap
          (fun number => segment s.logged (number - 1)) ↔
        ∃ file ∈ s.containers, logdict ∈ file.logs ∧ s.Reached query file := by
    intro logdict
    rw [List.mem_flatMap]
    constructor
    · rintro ⟨number, member, inSegment⟩
      obtain ⟨file, inFiles, stopid, reached⟩ := (settled.mem_ids_iff closed).mp member
      obtain ⟨index, _, _, isStop, logs⟩ := settled.containers_at inFiles
      have same : number - 1 = index := by omega
      rw [same, ← logs] at inSegment
      exact ⟨file, inFiles, inSegment, reached⟩
    · rintro ⟨file, inFiles, inFile, reached⟩
      obtain ⟨index, _, _, isStop, logs⟩ := settled.containers_at inFiles
      refine ⟨index + 1, (settled.mem_ids_iff closed).mpr ⟨file, inFiles, isStop, reached⟩, ?_⟩
      rw [Nat.add_sub_cancel, ← logs]
      exact inFile
  congr 2
  refine Ascending.ext (show Ascending LogDict.id _ from ?_) ?_ ?_
  · rw [ascending_append]
    refine ⟨Ascending.filter ?_ _, (settled.ascending_redis.filter _).filter _, ?_⟩
    · have shifted : ((s._data_container_ids_get_from_time query).map (· - 1)).Pairwise (· < ·) := by
        rw [List.pairwise_map]
        refine ids.imp_of_mem ?_
        intro first second firstMember _ below
        obtain ⟨file, inFiles, stopid, _⟩ := (settled.mem_ids_iff closed).mp firstMember
        obtain ⟨index, _, _, isStop, _⟩ := settled.containers_at inFiles
        omega
      have ascending := ascending_flatMap_segment settled.numbered shifted
      rwa [List.flatMap_map] at ascending
    · intro first firstMember second secondMember
      obtain ⟨file, inFiles, inFile, _⟩ := filed.mp (List.mem_of_mem_filter firstMember)
      have inRedis := settled.mem_redis_iff.mp
        (List.mem_of_mem_filter (List.mem_of_mem_filter secondMember))
      have inFiled := settled.mem_filed_iff.mp (List.mem_flatMap.mpr ⟨file, inFiles, inFile⟩)
      omega
  · exact settled.ascending_retained.filter _
  · intro logdict
    have anyTime : Wanted query 0 logdict ↔ query.InTime logdict := by
      simp [Wanted]
    have inRedis : logdict ∈ s.data.entries.map Prod.snd ↔
        s.data.lookup logdict.id = some logdict := by
      rw [settled.mem_redis_iff, settled.held]
      simp
    simp only [List.mem_append, List.mem_filter, decide_eq_true_eq, filed, wanted_iff_due,
      anyTime, retained, inRedis, List.mem_flatMap]
    rw [Visits]
    constructor
    · rintro (⟨⟨file, inFiles, inFile, reached⟩, due⟩ | ⟨⟨found, notNewest⟩, inTime⟩)
      · exact ⟨.inl ⟨file, inFiles, inFile⟩, .inr ⟨file, inFiles, inFile, reached, due⟩⟩
      · exact ⟨.inr found, .inl ⟨found, notNewest, inTime⟩⟩
    · rintro ⟨_, ⟨found, notNewest, inTime⟩ | ⟨file, inFiles, inFile, reached, due⟩⟩
      · exact .inr ⟨⟨found, notNewest⟩, inTime⟩
      · exact .inl ⟨⟨file, inFiles, inFile, reached⟩, due⟩

/-- Where the walk and the query differ. -/
theorem Settled.misjudges_iff (settled : s.Settled) {query : Query} {logdict : LogDict M}
    (kept : logdict ∈ s.retained) :
    s.Misjudges query logdict ↔ ¬ (Due query logdict ↔ s.Visits query logdict) := by
  rw [retained, List.mem_append] at kept
  have apart : ∀ {file : Container M}, file ∈ s.containers → logdict ∈ file.logs →
      s.data.lookup logdict.id ≠ some logdict := by
    intro file inFiles inFile found
    have filed := settled.mem_filed_iff.mp (List.mem_flatMap.mpr ⟨file, inFiles, inFile⟩)
    have late := ((settled.held _ _).mp found).2.2
    omega
  rcases kept with inFiles | inRedis
  · obtain ⟨file, inFiles, inFile⟩ := List.mem_flatMap.mp inFiles
    have single : ∀ {other : Container M}, other ∈ s.containers → logdict ∈ other.logs →
        other = file := by
      intro other otherInFiles inOther
      obtain ⟨index, _, _, stopid, logs⟩ := settled.containers_at inFiles
      obtain ⟨index', _, _, stopid', logs'⟩ := settled.containers_at otherInFiles
      rw [logs, settled.numbered.mem_segment_iff] at inFile
      rw [logs', settled.numbered.mem_segment_iff] at inOther
      have names := settled.ascending_containers
      by_contra different
      have distinct : other.stopid ≠ file.stopid := by
        intro same
        exact different (List.inj_on_of_nodup_map
          ((List.pairwise_map.mpr names).imp Nat.ne_of_lt) otherInFiles inFiles same)
      omega
    have notRedis := apart inFiles inFile
    simp only [Misjudges, Visits, notRedis, false_and, false_or]
    constructor
    · rintro ⟨other, otherInFiles, inOther, due, unreached⟩ same
      obtain ⟨next, nextInFiles, inNext, reached, _⟩ := same.mp due
      rw [single otherInFiles inOther] at unreached
      rw [single nextInFiles inNext] at reached
      exact unreached reached
    · intro differs
      by_cases due : Due query logdict
      · refine ⟨file, inFiles, inFile, due, ?_⟩
        intro reached
        exact differs ⟨fun _ => ⟨file, inFiles, inFile, reached, due⟩, fun _ => due⟩
      · refine (differs ⟨fun isDue => absurd isDue due, ?_⟩).elim
        rintro ⟨_, _, _, _, isDue⟩
        exact absurd isDue due
  · have found : s.data.lookup logdict.id = some logdict :=
      (settled.held _ _).mpr ⟨(settled.mem_redis_iff.mp inRedis).1, rfl,
        (settled.mem_redis_iff.mp inRedis).2⟩
    have notFiled : ∀ file ∈ s.containers, logdict ∉ file.logs := by
      intro file inFiles inFile
      exact apart inFiles inFile found
    have noFile : ∀ holds : Container M → Prop,
        ¬ ∃ file ∈ s.containers, logdict ∈ file.logs ∧ holds file := by
      rintro holds ⟨file, inFiles, inFile, _⟩
      exact notFiled file inFiles inFile
    rw [Misjudges, Visits, or_iff_left (noFile _), or_iff_left (noFile _), Due]
    simp only [found, true_and]
    by_cases inTime : query.InTime logdict
    · simp only [inTime, true_and, and_true]
      omega
    · simp [inTime]

/-- A walk hands over exactly the messages it is asked for, when it finds the
container before the first one in time, and every message that it judges wrongly
comes behind as many as it was asked for. -/
theorem walk_visits_iff (settled : s.Settled) (query : Query) :
    s.walk query =
        .ok ((s.retained.filter fun logdict => Due query logdict).take query.maxitems.toNat) ↔
      ¬ s.Gap query ∧ ∀ logdict ∈ s.retained, s.Misjudges query logdict →
        query.maxitems.toNat ≤
          (s.retained.filter fun before =>
            Due query before && decide (before.id < logdict.id)).length := by
  classical
  by_cases gap : s.Gap query
  · obtain ⟨number, raised⟩ := settled.walk_gap gap
    simp [raised, gap]
  · rw [settled.walk_closed gap, Except.ok.injEq,
      take_filter_eq_iff settled.ascending_retained]
    simp only [gap, not_false_eq_true, true_and, ne_eq, decide_eq_decide]
    apply forall₂_congr
    intro logdict kept
    rw [settled.misjudges_iff kept]

end Settled

/-- The store behind one message. -/
def oneLogged : Logging Unit Unit :=
  Runs.run (step 50) init oneMessage

theorem settled_oneLogged : oneLogged.Settled :=
  (run_consistent sound_oneMessage).settled fun _ => rfl

/-- All messages, at the time 7. -/
def everything : Query where
  id_from := 0
  time_from := none
  time_to := none
  maxitems := 10000
  now := 7

theorem walk_visits_iff_oneLogged :
    oneLogged.walk everything =
        .ok ((oneLogged.retained.filter fun logdict => Due everything logdict).take
          everything.maxitems.toNat) ↔
      ¬ oneLogged.Gap everything ∧ ∀ logdict ∈ oneLogged.retained,
        oneLogged.Misjudges everything logdict →
          everything.maxitems.toNat ≤
            (oneLogged.retained.filter fun before =>
              Due everything before && decide (before.id < logdict.id)).length :=
  walk_visits_iff settled_oneLogged everything

/-- The newest message is passed over. -/
theorem walk_misses_newest :
    ¬ ∀ (s : Logging Unit Unit) (query : Query), s.Settled →
      s.walk query =
        .ok ((s.retained.filter fun logdict => Due query logdict).take query.maxitems.toNat) := by
  classical
  intro always
  have walked := always oneLogged everything settled_oneLogged
  have closed : ¬ oneLogged.Gap everything := by
    rintro ⟨file, member, _⟩
    cases member
  have asked : (oneLogged.retained.filter fun logdict => Due everything logdict).take
      everything.maxitems.toNat = [⟨1, 7, ()⟩] := by
    decide +kernel
  rw [settled_oneLogged.walk_closed closed, asked, Except.ok.injEq] at walked
  have member := List.mem_singleton_self (LogDict.mk 1 7 ())
  rw [← walked] at member
  have selected := List.of_mem_filter (List.mem_of_mem_take member)
  rw [decide_eq_true_eq] at selected
  rcases selected with ⟨_, notNewest, _⟩ | ⟨file, member, _⟩
  · exact notNewest rfl
  · cases member

end Logging

end JumpscaleX.Logs
