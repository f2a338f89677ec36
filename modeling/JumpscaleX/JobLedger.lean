import JumpscaleX.JobMessages

/-!
# What the steps of a process do to ends and messages

A process that loads a job, stores it as new again, stores its end or puts its
result keeps every end, and keeps the messages in agreement with them.
-/

namespace JumpscaleX

open Stateful

namespace System

variable {system : System}

section

variable {processId : ProcessId} {process : Process} {step : Process.Step}

/-- A process saves the job that it works on, which is none that ended. -/
theorem EndsAs.save {job saved old : Job} (ends : system.EndsAs job)
    (saves : step.1 = .saveJob saved) (rests : Process.working step = none)
    (works : system.working processId = some old) (same : old.id = saved.id) :
    (system.advance processId step).EndsAs job := by
  refine ⟨ends.finished, ?_, ?_, ends.known⟩
  · intro worker worked running
    exact ends.idle worker worked (working_released rests running).2
  · intro later found
    rcases stored_behind_save saves found with ⟨here, _⟩ | ⟨_, found⟩
    · exact absurd (same.trans here.symm) (ends.idle processId old works)
    · exact ends.stored later found

theorem next_endsAs {job : Job} (evaluation : Evaluation) (proper : system.Proper)
    (runs : system.processes processId = some process)
    (fits : (Action.work processId evaluation).EndsOnce system) (ends : system.EndsAs job) :
    (system.advance processId (system.next process evaluation)).EndsAs job ∧
      executes job.id (system.next process evaluation).1 = false := by
  have progress : Process.Progress system.backend process
      (system.next process evaluation).1 (Process.working (system.next process evaluation))
      (Process.posting (system.next process evaluation)) :=
    Process.step_progress (proper.sound processId process runs)
  have working := working_of_runs runs
  generalize system.next process evaluation = step at progress ⊢
  obtain ⟨operation, behind⟩ := step
  generalize works : Process.working (operation, behind) = worksBehind at progress
  generalize posts : Process.posting (operation, behind) = postsBehind at progress
  have unexecuted (mute : operation.Mute) : executes job.id operation = false := by
    cases operation with
    | evaluate executed evaluation => exact mute.elim
    | _ => rfl
  cases progress with
  | idles mute =>
      refine ⟨ends.shrinks rfl ?_ ?_, unexecuted mute⟩
      · intro worker other
        apply working_kept works
        intro old same
        exact ⟨old, working.trans same, .refl old⟩
      · intro id other found
        rwa [advance_jobs (mute_unsaved mute)] at found
  | @begins id stored place found =>
      have unended := ((fits process runs).1 id place).1 stored found
      have keyed := proper.keyed id stored found
      refine ⟨⟨ends.finished, ?_, ends.stored, ends.known⟩, rfl⟩
      intro worker other worked
      rw [working_advance, works] at worked
      rcases Custody.update_eq_some worked with ⟨_, value⟩ | ⟨_, worked⟩
      · cases value
        intro same
        have here : system.backend.jobs job.id = some stored := by
          rw [← same]
          exact keyed ▸ found
        rw [(ends.stored stored here).1, ends.finished] at unended
        cases unended
      · exact ends.idle worker other worked
  | @works _ before after worksBefore unposted same executes =>
      refine ⟨ends.shrinks rfl ?_ ?_, ?_⟩
      · intro worker other
        apply working_kept works
        rintro _ ⟨⟩
        exact ⟨before, working.trans worksBefore, same⟩
      · intro id other found
        rwa [advance_jobs (executes_unsaved executes)] at found
      · cases operation with
        | evaluate executed evaluation =>
            cases executes
            have other := ends.idle processId before (working.trans worksBefore)
            simpa [System.executes] using other
        | _ => rfl
  | @resets old worksBefore unposted =>
      exact ⟨ends.save rfl works (working.trans worksBefore) rfl, rfl⟩
  | @ends old saved worksBefore unposted finished copy kept =>
      refine ⟨ends.save rfl works (working.trans worksBefore) ?_, rfl⟩
      rw [copy]
  | @posts old name rest postsBefore idle =>
      refine ⟨ends.shrinks rfl ?_ (fun _ _ found => found), rfl⟩
      intro worker other worked
      exact ⟨other, (working_released works worked).2, .refl other⟩
  | @posted _ old postsBefore idle mute =>
      refine ⟨ends.shrinks rfl ?_ ?_, unexecuted mute⟩
      · intro worker other worked
        exact ⟨other, (working_released works worked).2, .refl other⟩
      · intro id other found
        rwa [advance_jobs (mute_unsaved mute)] at found
  | drops unposted mute =>
      refine ⟨ends.shrinks rfl ?_ ?_, unexecuted mute⟩
      · intro worker other worked
        exact ⟨other, (working_released works worked).2, .refl other⟩
      · intro id other found
        rwa [advance_jobs (mute_unsaved mute)] at found

theorem begins_ledger {stored : Job} {id : JobId} (ledger : system.Ledger)
    (traced : (system.advance processId step).Traced)
    (keeps : ∀ job, system.EndsAs job → (system.advance processId step).EndsAs job)
    (load : step.1 = .load id)
    (found : system.backend.jobs stored.id = some stored)
    (unended : stored.state.finished = false)
    (free : ∀ other job, system.working other = some job → job.id ≠ stored.id)
    (begins : Process.working step = some { stored with timeStart := system.backend.now })
    (unposted : Process.posting step = system.posting processId) :
    (system.advance processId step).Ledger := by
  have posting : (system.advance processId step).posting = system.posting := by
    rw [posting_advance, unposted, Function.update_eq_self]
  have jobs : (system.advance processId step).backend.jobs = system.backend.jobs :=
    advance_jobs (by simp [load])
  have messages : ∀ id queueName, (system.advance processId step).messages id queueName =
      system.messages id queueName :=
    messages_advance_mute (by simp [load])
  have working {other : ProcessId} {job : Job}
      (works : (system.advance processId step).working other = some job) :
      (other = processId ∧ job = { stored with timeStart := system.backend.now }) ∨
        (other ≠ processId ∧ system.working other = some job) := by
    rw [working_advance] at works
    rcases Custody.update_eq_some works with ⟨same, value⟩ | elsewhere
    · exact .inl ⟨same, (Option.some.inj (begins.symm.trans value)).symm⟩
    · exact .inr elsewhere
  refine ⟨traced, ledger.distinct, ?_, ?_, ?_, ?_, ?_, ?_⟩
  · intro first second job other works otherWorks same
    rcases working works with ⟨rfl, rfl⟩ | ⟨_, works⟩
    · rcases working otherWorks with ⟨rfl, _⟩ | ⟨_, otherWorks⟩
      · rfl
      · exact absurd same.symm (free second other otherWorks)
    · rcases working otherWorks with ⟨_, rfl⟩ | ⟨_, otherWorks⟩
      · exact absurd same (free first job works)
      · exact ledger.alone first second job other works otherWorks same
  · intro job shows
    apply keeps
    apply ledger.ends
    cases shows with
    | stored found finished => exact .stored (jobs ▸ found) finished
    | posting other queueNames posts => exact .posting other queueNames (posting ▸ posts)
    | loaded call found finished => exact .loaded call found finished
  · intro other unendedOther queueName
    rw [messages]
    apply ledger.silent
    cases unendedOther with
    | unknown unknown => exact .unknown unknown
    | working worker job works same =>
        rcases working works with ⟨_, rfl⟩ | ⟨_, works⟩
        · exact .stored stored (same ▸ found) unended
        · exact .working worker job works same
    | stored job found unfinished => exact .stored job (jobs ▸ found) unfinished
  · rw [posting]
    exact ledger.poster
  · rw [posting]
    intro other job queueNames posts
    simp only [messages]
    exact ledger.posts other job queueNames posts
  · rw [posting]
    intro job ended unposted queueName member
    rw [messages]
    rw [Ended, jobs] at ended
    exact ledger.delivered job ended unposted queueName member

theorem resets_ledger {job : Job} (ledger : system.Ledger)
    (traced : (system.advance processId step).Traced)
    (keeps : ∀ job, system.EndsAs job → (system.advance processId step).EndsAs job)
    (saves : step.1 = .saveJob { job with state := .new })
    (works : system.working processId = some job)
    (rests : Process.working step = none)
    (unposted : Process.posting step = system.posting processId) :
    (system.advance processId step).Ledger := by
  have posting : (system.advance processId step).posting = system.posting := by
    rw [posting_advance, unposted, Function.update_eq_self]
  have messages : ∀ id queueName, (system.advance processId step).messages id queueName =
      system.messages id queueName :=
    messages_advance_mute (by simp [saves])
  refine ⟨traced, ledger.distinct, ?_, ?_, ?_, ?_, ?_, ?_⟩
  · intro first second other another worked otherWorked same
    exact ledger.alone first second other another (working_released rests worked).2
      (working_released rests otherWorked).2 same
  · intro other shows
    apply keeps
    apply ledger.ends
    cases shows with
    | stored found finished =>
        rcases stored_behind_save saves found with ⟨_, rfl⟩ | ⟨_, found⟩
        · cases finished
        · exact .stored found finished
    | posting worker queueNames posts => exact .posting worker queueNames (posting ▸ posts)
    | loaded call found finished => exact .loaded call found finished
  · intro id unended queueName
    rw [messages]
    apply ledger.silent
    cases unended with
    | unknown unknown => exact .unknown unknown
    | working worker worked running same =>
        exact .working worker worked (working_released rests running).2 same
    | stored later found unfinished =>
        rcases stored_behind_save saves found with ⟨same, _⟩ | ⟨_, found⟩
        · exact .working processId job works same.symm
        · exact .stored later found unfinished
  · rw [posting]
    exact ledger.poster
  · rw [posting]
    intro worker other queueNames posts
    simp only [messages]
    exact ledger.posts worker other queueNames posts
  · rw [posting]
    intro other ended free queueName member
    rw [messages]
    rcases stored_behind_save saves ended.1 with ⟨_, rfl⟩ | ⟨_, found⟩
    · cases ended.2
    · exact ledger.delivered other ⟨found, ended.2⟩ free queueName member

theorem ends_ledger {job : Job} (ledger : system.Ledger)
    (traced : (system.advance processId step).Traced)
    (keeps : ∀ job, system.EndsAs job → (system.advance processId step).EndsAs job)
    (saves : step.1 = .saveJob job)
    (works : system.working processId = some job) (finished : job.state.finished = true)
    (unposted : system.posting processId = none) (rests : Process.working step = none)
    (posts : Process.posting step = some (job, job.returnQueues)) :
    (system.advance processId step).Ledger := by
  obtain ⟨first, known, alike⟩ := ledger.copied job (.working processId works)
  have posting {worker : ProcessId} {other : Job} {queueNames : List String}
      (posted : (system.advance processId step).posting worker = some (other, queueNames)) :
      (worker = processId ∧ other = job ∧ queueNames = job.returnQueues) ∨
        (system.posting worker = some (other, queueNames) ∧ other.id ≠ job.id) := by
    rw [posting_advance, posts] at posted
    rcases Custody.update_eq_some posted with ⟨same, value⟩ | ⟨_, posted⟩
    · cases value
      exact .inl ⟨same, rfl, rfl⟩
    · have ends := ledger.ends other (.posting worker queueNames posted)
      exact .inr ⟨posted, (ends.idle processId job works).symm⟩
  have messages : ∀ id queueName, (system.advance processId step).messages id queueName =
      system.messages id queueName :=
    messages_advance_mute (by simp [saves])
  have others {worker : ProcessId} {other : Job}
      (worked : (system.advance processId step).working worker = some other) :
      other.id ≠ job.id := by
    obtain ⟨different, worked⟩ := working_released rests worked
    intro same
    exact different (ledger.alone worker processId other job worked works same)
  refine ⟨traced, ledger.distinct, ?_, ?_, ?_, ?_, ?_, ?_⟩
  · intro first second other another worked otherWorked same
    exact ledger.alone first second other another (working_released rests worked).2
      (working_released rests otherWorked).2 same
  · have ended : (system.advance processId step).EndsAs job := by
      refine ⟨finished, fun worker other => others, ?_, ?_⟩
      · intro later found
        rcases stored_behind_save saves found with ⟨_, rfl⟩ | ⟨different, _⟩
        · exact ⟨rfl, rfl⟩
        · exact absurd rfl different
      · change system.created job.id ≠ none
        rw [known]
        exact Option.some_ne_none first
    intro other shows
    cases shows with
    | stored found finished =>
        rcases stored_behind_save saves found with ⟨_, rfl⟩ | ⟨_, found⟩
        · exact ended
        · exact keeps other (ledger.ends other (.stored found finished))
    | posting worker queueNames posted =>
        rcases posting posted with ⟨_, rfl, _⟩ | ⟨posted, _⟩
        · exact ended
        · exact keeps other (ledger.ends other (.posting worker queueNames posted))
    | loaded call found finished =>
        exact keeps other (ledger.ends other (.loaded call found finished))
  · intro id unended queueName
    rw [messages]
    apply ledger.silent
    cases unended with
    | unknown unknown => exact .unknown unknown
    | working worker worked running same =>
        exact .working worker worked (working_released rests running).2 same
    | stored later found unfinished =>
        rcases stored_behind_save saves found with ⟨_, rfl⟩ | ⟨_, found⟩
        · rw [finished] at unfinished
          cases unfinished
        · exact .stored later found unfinished
  · intro one two other another queueNames otherNames posted otherPosted same
    rcases posting posted with ⟨rfl, rfl, _⟩ | ⟨posted, different⟩
    · rcases posting otherPosted with ⟨rfl, _, _⟩ | ⟨_, otherDifferent⟩
      · rfl
      · exact absurd same.symm otherDifferent
    · rcases posting otherPosted with ⟨_, rfl, _⟩ | ⟨otherPosted, _⟩
      · exact absurd same different
      · exact ledger.poster one two other another queueNames otherNames posted otherPosted
          same
  · intro worker other queueNames posted
    simp only [messages]
    rcases posting posted with ⟨_, rfl, rfl⟩ | ⟨posted, _⟩
    · refine ⟨alike.2.2 ▸ ledger.distinct _ first known, ?_⟩
      intro queueName member
      rw [if_pos member]
      exact ledger.silent _ (.working processId other works rfl) queueName
    · exact ledger.posts worker other queueNames posted
  · intro other ended free queueName member
    rw [messages]
    have posted : (system.advance processId step).posting processId =
        some (job, job.returnQueues) := by
      rw [posting_advance, posts, Function.update_self]
    have different := free processId job job.returnQueues posted
    rcases stored_behind_save saves ended.1 with ⟨same, _⟩ | ⟨_, found⟩
    · exact absurd same.symm different
    · apply ledger.delivered other ⟨found, ended.2⟩ _ queueName member
      intro worker another queueNames earlier
      by_cases here : worker = processId
      · subst here
        rw [unposted] at earlier
        cases earlier
      · apply free worker another queueNames
        rw [posting_advance, Function.update_of_ne here]
        exact earlier

theorem posts_ledger {job : Job} {name : String} {rest : List String}
    (ledger : system.Ledger) (traced : (system.advance processId step).Traced)
    (keeps : ∀ job, system.EndsAs job → (system.advance processId step).EndsAs job)
    (puts : step.1 = .post name job.message)
    (before : system.posting processId = some (job, name :: rest))
    (rests : Process.working step = system.working processId)
    (behind : Process.posting step = some (job, rest)) :
    (system.advance processId step).Ledger := by
  obtain ⟨nodup, progress⟩ := ledger.posts processId job (name :: rest) before
  obtain ⟨fresh, restNodup⟩ := List.nodup_cons.mp nodup
  have ended := ledger.ends job (.posting processId (name :: rest) before)
  have working : (system.advance processId step).working = system.working := by
    rw [working_advance, rests, Function.update_eq_self]
  have jobs : (system.advance processId step).backend.jobs = system.backend.jobs :=
    advance_jobs (by simp [puts])
  have posting {worker : ProcessId} {other : Job} {queueNames : List String}
      (posted : (system.advance processId step).posting worker = some (other, queueNames)) :
      (worker = processId ∧ other = job ∧ queueNames = rest) ∨
        (system.posting worker = some (other, queueNames) ∧ other.id ≠ job.id) := by
    rw [posting_advance, behind] at posted
    rcases Custody.update_eq_some posted with ⟨same, value⟩ | ⟨different, posted⟩
    · cases value
      exact .inl ⟨same, rfl, rfl⟩
    · refine .inr ⟨posted, ?_⟩
      intro same
      exact different
        (ledger.poster worker processId other job queueNames (name :: rest) posted before same)
  have others {id : JobId} (different : id ≠ job.id) (queueName : String) :
      (system.advance processId step).messages id queueName =
        system.messages id queueName := by
    have unlike : job.message.id ≠ id := Ne.symm different
    rw [messages_advance, puts]
    simp [messageOf, unlike]
  have own (queueName : String) :
      (system.advance processId step).messages job.id queueName =
        (if name = queueName then [job.message] else []) ++
          system.messages job.id queueName := by
    have self : job.message.id = job.id := rfl
    rw [messages_advance, puts]
    by_cases same : name = queueName <;> simp [messageOf, same, self]
  refine ⟨traced, ledger.distinct, ?_, ?_, ?_, ?_, ?_, ?_⟩
  · rw [working]
    exact ledger.alone
  · intro other shows
    apply keeps
    apply ledger.ends
    cases shows with
    | stored found finished => exact .stored (jobs ▸ found) finished
    | posting worker queueNames posted =>
        rcases posting posted with ⟨_, rfl, _⟩ | ⟨posted, _⟩
        · exact .posting processId (name :: rest) before
        · exact .posting worker queueNames posted
    | loaded call found finished => exact .loaded call found finished
  · intro id unended queueName
    have unendedBefore : system.Unended id := by
      cases unended with
      | unknown unknown => exact .unknown unknown
      | working worker worked running same =>
          exact .working worker worked (working ▸ running) same
      | stored later found unfinished => exact .stored later (jobs ▸ found) unfinished
    have different : id ≠ job.id := by
      rintro rfl
      exact ended.not_unended unendedBefore
    rw [others different]
    exact ledger.silent id unendedBefore queueName
  · intro one two other another queueNames otherNames posted otherPosted same
    rcases posting posted with ⟨rfl, rfl, _⟩ | ⟨posted, different⟩
    · rcases posting otherPosted with ⟨rfl, _, _⟩ | ⟨_, otherDifferent⟩
      · rfl
      · exact absurd same.symm otherDifferent
    · rcases posting otherPosted with ⟨_, rfl, _⟩ | ⟨otherPosted, _⟩
      · exact absurd same different
      · exact ledger.poster one two other another queueNames otherNames posted otherPosted
          same
  · intro worker other queueNames posted
    rcases posting posted with ⟨_, rfl, rfl⟩ | ⟨posted, different⟩
    · refine ⟨restNodup, ?_⟩
      intro queueName member
      rw [own, progress queueName member]
      by_cases same : name = queueName
      · subst same
        simp [fresh]
      · simp [same, Ne.symm same]
    · simp only [others different]
      exact ledger.posts worker other queueNames posted
  · intro other ends free queueName member
    have posted : (system.advance processId step).posting processId = some (job, rest) := by
      rw [posting_advance, behind, Function.update_self]
    have different := (free processId job rest posted).symm
    rw [others different]
    rw [Ended, jobs] at ends
    apply ledger.delivered other ends _ queueName member
    intro worker another queueNames earlierPosting
    by_cases here : worker = processId
    · subst here
      rw [before] at earlierPosting
      cases earlierPosting
      exact different.symm
    · apply free worker another queueNames
      rw [posting_advance, Function.update_of_ne here]
      exact earlierPosting

/-- What two ended copies of a job show of it. -/
theorem Ledger.same_end {job other : Job} (ledger : system.Ledger)
    (ended : system.Ended job) (ends : system.EndsAs other) (copy : system.Copy other)
    (same : job.id = other.id) :
    job.message = other.message ∧ job.returnQueues = other.returnQueues := by
  obtain ⟨first, known, alike⟩ := ledger.copied job (.stored ended.1)
  obtain ⟨second, otherKnown, otherAlike⟩ := ledger.copied other copy
  rw [same, otherKnown] at known
  cases known
  obtain ⟨state, result⟩ := ends.stored job (same ▸ ended.1)
  refine ⟨?_, alike.2.2.trans otherAlike.2.2.symm⟩
  rw [Job.message, Job.message, state, result, same]

theorem posted_ledger {job : Job} (ledger : system.Ledger)
    (traced : (system.advance processId step).Traced)
    (keeps : ∀ job, system.EndsAs job → (system.advance processId step).EndsAs job)
    (mute : step.1.Mute)
    (before : system.posting processId = some (job, []))
    (rests : Process.working step = system.working processId)
    (behind : Process.posting step = none) :
    (system.advance processId step).Ledger := by
  have working : (system.advance processId step).working = system.working := by
    rw [working_advance, rests, Function.update_eq_self]
  have jobs : (system.advance processId step).backend.jobs = system.backend.jobs :=
    advance_jobs (mute_unsaved mute)
  have messages : ∀ id queueName, (system.advance processId step).messages id queueName =
      system.messages id queueName :=
    messages_advance_mute (mute_unposted mute)
  have posting {worker : ProcessId} {other : Job} {queueNames : List String}
      (posted : (system.advance processId step).posting worker = some (other, queueNames)) :
      system.posting worker = some (other, queueNames) := by
    rw [posting_advance, behind] at posted
    rcases Custody.update_eq_some posted with ⟨_, impossible⟩ | ⟨_, posted⟩
    · cases impossible
    · exact posted
  refine ⟨traced, ledger.distinct, ?_, ?_, ?_, ?_, ?_, ?_⟩
  · rw [working]
    exact ledger.alone
  · intro other shows
    apply keeps
    apply ledger.ends
    cases shows with
    | stored found finished => exact .stored (jobs ▸ found) finished
    | posting worker queueNames posted => exact .posting worker queueNames (posting posted)
    | loaded call found finished => exact .loaded call found finished
  · intro id unended queueName
    rw [messages]
    apply ledger.silent
    cases unended with
    | unknown unknown => exact .unknown unknown
    | working worker worked running same =>
        exact .working worker worked (working ▸ running) same
    | stored later found unfinished => exact .stored later (jobs ▸ found) unfinished
  · intro one two other another queueNames otherNames posted otherPosted
    exact ledger.poster one two other another queueNames otherNames (posting posted)
      (posting otherPosted)
  · intro worker other queueNames posted
    simp only [messages]
    exact ledger.posts worker other queueNames (posting posted)
  · intro other ended free queueName member
    rw [messages]
    rw [Ended, jobs] at ended
    by_cases same : other.id = job.id
    · have ends := ledger.ends job (.posting processId [] before)
      obtain ⟨message, queues⟩ := ledger.same_end ended ends (.posting processId [] before) same
      rw [message, same, (ledger.posts processId job [] before).2 queueName (queues ▸ member)]
      rfl
    · apply ledger.delivered other ended _ queueName member
      intro worker another queueNames earlier
      by_cases here : worker = processId
      · subst here
        rw [before] at earlier
        cases earlier
        exact Ne.symm same
      · apply free worker another queueNames
        rw [posting_advance, Function.update_of_ne here]
        exact earlier

theorem next_ledger (evaluation : Evaluation) (ledger : system.Ledger)
    (runs : system.processes processId = some process)
    (traced : (system.advance processId (system.next process evaluation)).Traced)
    (fits : (Action.work processId evaluation).EndsOnce system) :
    (system.advance processId (system.next process evaluation)).Ledger := by
  have progress : Process.Progress system.backend process
      (system.next process evaluation).1 (Process.working (system.next process evaluation))
      (Process.posting (system.next process evaluation)) :=
    Process.step_progress (ledger.sound processId process runs)
  have working := working_of_runs runs
  have posting := posting_of_runs runs
  have keeps (job : Job) (ends : system.EndsAs job) :
      (system.advance processId (system.next process evaluation)).EndsAs job :=
    (next_endsAs evaluation ledger.toProper runs fits ends).1
  generalize system.next process evaluation = step at progress traced keeps ⊢
  obtain ⟨operation, behind⟩ := step
  generalize works : Process.working (operation, behind) = worksBehind at progress
  generalize posts : Process.posting (operation, behind) = postsBehind at progress
  cases progress with
  | idles mute =>
      refine ledger.shrinks traced rfl ?_ ?_ ?_ (fun _ _ found => found)
        (messages_advance_mute (mute_unposted mute))
      · intro worker job
        apply working_kept works
        intro old same
        exact ⟨old, working.trans same, .refl old⟩
      · rw [posting_advance, posts, ← posting, Function.update_eq_self]
      · intro id job found
        rwa [advance_jobs (mute_unsaved mute)] at found
  | @begins id stored place found =>
      obtain ⟨unended, free⟩ := (fits process runs).1 id place
      have keyed := ledger.keyed id stored found
      subst keyed
      apply begins_ledger ledger traced keeps rfl found (unended stored found) free works
      rw [posts, posting, place]
      rfl
  | @works _ before after worksBefore unposted same executes =>
      refine ledger.shrinks traced rfl ?_ ?_ ?_ (fun _ _ found => found)
        (messages_advance_mute (executes_unposted executes))
      · intro worker job
        apply working_kept works
        rintro _ ⟨⟩
        exact ⟨before, working.trans worksBefore, same⟩
      · rw [posting_advance, posts, ← unposted, ← posting, Function.update_eq_self]
      · intro id job found
        rwa [advance_jobs (executes_unsaved executes)] at found
  | @resets job worksBefore unposted =>
      exact resets_ledger ledger traced keeps rfl (working.trans worksBefore) works
        (posts.trans (unposted.symm.trans posting.symm))
  | @ends job saved worksBefore unposted finished copy kept =>
      have result : saved.result = job.result := by
        rcases kept with ⟨place, stored⟩ | same
        · exact (fits process runs).2 job saved.result place stored
        · exact same
      have same : saved = job := by rw [copy, result]
      subst same
      exact ends_ledger ledger traced keeps rfl (working.trans worksBefore) finished
        (posting.trans unposted) works posts
  | @posts job name rest postsBefore idle =>
      exact posts_ledger ledger traced keeps rfl (posting.trans postsBefore)
        (works.trans (idle.symm.trans working.symm)) posts
  | @posted _ job postsBefore idle mute =>
      exact posted_ledger ledger traced keeps mute (posting.trans postsBefore)
        (works.trans (idle.symm.trans working.symm)) posts
  | drops unposted mute =>
      refine ledger.shrinks traced rfl ?_ ?_ ?_ (fun _ _ found => found)
        (messages_advance_mute (mute_unposted mute))
      · intro worker job worked
        exact ⟨job, (working_released works worked).2, .refl job⟩
      · rw [posting_advance, posts, ← unposted, ← posting, Function.update_eq_self]
      · intro id job found
        rwa [advance_jobs (mute_unsaved mute)] at found

end

end System

end JumpscaleX
