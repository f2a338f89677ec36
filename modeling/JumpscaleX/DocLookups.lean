import JumpscaleX.DocSite

/-!
# Lookups that do not depend on earlier ones

A lookup is compared with the same lookup on the site as it was loaded.  What earlier lookups
wrote is told apart from what was loaded by the name that wrote it.
-/

namespace JumpscaleX.DocSites

open Fallible Stateful Runs

variable (lower : String → String)

/-! ## What a lookup should find -/

/-- The documents of a site under their dotted names. -/
structure Site where
  docs : Dict String Doc
  named : ∀ key doc, docs.get key = some doc → doc.nameDotLower = key

/-- The dictionary of a site that was just loaded. -/
def Site.fresh (site : Site) : Docs where
  entries := site.docs.entries.map (fun entry => (entry.1, ⟨.doc entry.2, none⟩))
  nodup := by
    rw [List.map_map]
    exact site.docs.nodup

/-- The documents whose dotted names end with a text. -/
def Site.ending (site : Site) (name : String) : List (String × Doc) :=
  site.docs.entries.filter (fun entry => endsWith entry.2.nameDotLower name)

/-- The names of the readme, index and directory documents that stand for a name, and the name
itself. -/
def variants (name : String) : List String :=
  candidates name ++ if endsWith name "index" then [siblingReadme name] else []

/-- The document has the name or a variant of it, or there is none that has and it is the only
one whose name ends so. -/
def Site.Intended (site : Site) (name : String) (doc : Doc) : Prop :=
  (∃ variant ∈ variants name, site.docs.get variant = some doc) ∨
    (∀ variant ∈ variants name, site.docs.get variant = none) ∧
      ∃ variant ∈ variants name, ∃ key, site.ending variant = [(key, doc)]

/-- No document has the name or a variant of it, and several or none have names that end so. -/
def Site.Unfound (site : Site) (name : String) : Prop :=
  (∀ variant ∈ variants name, site.docs.get variant = none) ∧
    ((∃ variant ∈ variants name, 2 ≤ (site.ending variant).length) ∨
      ∀ variant ∈ variants name, site.ending variant = [])

/-- What is seen of a call. -/
inductive Observed where
  | answer (answer : Answer)
  | pair (nr : Nat) (answer : Answer)
  | notFound
  | broken
  deriving DecidableEq

def observe : EStateM.Result Exn Docs Result → Observed
  | .ok (.answer answer) _ => .answer answer
  | .ok (.pair nr answer) _ => .pair nr answer
  | .error (.input _) _ => .notFound
  | .error _ _ => .broken

structure Call where
  name : Name
  cat : String
  die : Bool

def Call.run (call : Call) (docs : Docs) : EStateM.Result Exn Docs Result :=
  docGet lower call.name call.cat call.die docs

def step (docs : Docs) (call : Call) : Docs :=
  final (docGet lower call.name call.cat call.die) docs

/-- What may be seen of a call, by the documents of the site. -/
def Site.Meets (site : Site) (name : String) (die : Bool) : Observed → Prop
  | .answer (.doc doc) => site.Intended name doc
  | .answer .missing => die = false ∧ site.Unfound name
  | .answer .blank => False
  | .pair .. => False
  | .notFound => die = true ∧ site.Unfound name
  | .broken => False

/-- The call does what it does on the loaded site, and that is what it should find. -/
def AsClaimed (site : Site) (docs : Docs) (call : Call) : Prop :=
  observe (call.run lower docs) = observe (call.run lower site.fresh) ∧
    site.Meets (cleaned lower call.name) call.die (observe (call.run lower site.fresh))

/-! ## The condition -/

/-- The candidate has an answer on the loaded site. -/
def Site.answered (site : Site) (candidate : String) : Bool :=
  isSidebar lower candidate || (site.docs.get candidate).isSome ||
    !(site.ending candidate).isEmpty

/-- The first candidate that has an answer. -/
def Site.deciding (site : Site) (name : String) : Option String :=
  (candidates name).find? (site.answered lower)

/-- The readme next to an index is no answer by itself. -/
def Site.NoSibling (site : Site) (name : String) : Prop :=
  endsWith name "index" = true →
    isSidebar lower (siblingReadme name) = false ∧
      site.docs.get (siblingReadme name) = none ∧
        (site.ending (siblingReadme name)).length ≠ 1

/-- Of the candidates the first one with an answer is not the name of a sidebar, it is the name
of a document only without a category, and where it is found by its end no other candidate is
the name of another document. -/
def Site.Decides (site : Site) (name cat : String) : Prop :=
  ∀ candidate, site.deciding lower name = some candidate →
    isSidebar lower candidate = false ∧
      (site.docs.get candidate ≠ none → cat = "") ∧
        (site.docs.get candidate = none →
          (∀ variant ∈ variants name, site.docs.get variant = none) ∨
            ∃ key doc, site.ending candidate = [(key, doc)] ∧
              doc.nameDotLower ∈ variants name)

/-- The loaded site answers as it should. -/
def Site.Plain (site : Site) (name cat : String) : Prop :=
  site.docs.get name ≠ none ∨
    site.NoSibling lower name ∧ site.Decides lower name cat

/-- What earlier lookups wrote is not seen: the name was loaded or was itself looked up before,
or no written entry replaces a document, stands under a variant of the name, or holds the only
document that ends with one. -/
def Site.Unspoiled (site : Site) (docs : Docs) (name : String) : Prop :=
  match docs.get name with
  | some entry => entry.writer = none ∨ entry.writer = some name
  | none => ∀ key entry, docs.get key = some entry → entry.writer ≠ none →
      site.docs.get key = none ∧ key ∉ variants name ∧
        ∀ variant ∈ variants name, ∀ other doc, entry.answer = .doc doc →
          site.ending variant ≠ [(other, doc)]

def Sound (site : Site) (docs : Docs) (call : Call) : Prop :=
  site.Plain lower (cleaned lower call.name) call.cat ∧
    site.Unspoiled docs (cleaned lower call.name)

/-! ## Answers of the loaded site -/

variable {lower}

/-- What the loaded site answers to a candidate. -/
def Site.answer (site : Site) (candidate : String) : Verdict :=
  match site.docs.get candidate with
  | some doc => .found (.doc doc)
  | none =>
      match site.ending candidate with
      | [(_, doc)] => .found (.doc doc)
      | docs => .several docs.length

/-- What the loaded site answers to a name. -/
def Site.verdict (lower : String → String) (site : Site) (candidates : List String) : Verdict :=
  match candidates.find? (site.answered lower) with
  | some candidate => site.answer candidate
  | none => .nothing

section

variable {site : Site} {docs : Docs} {name cat candidate : String} {doc : Doc}

theorem Site.mem_ending {entry : String × Doc} :
    entry ∈ site.ending name ↔
      site.docs.get entry.1 = some entry.2 ∧ endsWith entry.2.nameDotLower name = true := by
  rw [Site.ending, List.mem_filter, Dict.get_eq_some_iff]

theorem Site.nodup_ending : (site.ending name).Nodup :=
  site.docs.entries_nodup.filter _

theorem mem_hits {entry : String × Entry} :
    entry ∈ hits docs name ↔
      docs.get entry.1 = some entry.2 ∧
        ∃ doc, entry.2.answer = .doc doc ∧ endsWith doc.nameDotLower name = true := by
  rw [hits, List.mem_filter, Dict.get_eq_some_iff]
  apply and_congr_right
  intro member
  cases entry.2.answer with
  | doc doc => simp
  | missing => simp
  | blank => simp

/-- A document that the loaded site answers with is one of the site. -/
theorem Site.doc_of_answer (answered : site.answer candidate = .found (.doc doc)) :
    site.docs.get doc.nameDotLower = some doc := by
  rw [Site.answer] at answered
  split at answered
  case h_1 other loaded =>
    cases answered
    rw [site.named _ _ loaded]
    exact loaded
  case h_2 =>
    split at answered
    case h_1 key other alone =>
      cases answered
      have member : (key, doc) ∈ site.ending candidate := by
        rw [alone]
        exact List.mem_singleton_self _
      have loaded := (Site.mem_ending.mp member).1
      rw [site.named _ _ loaded]
      exact loaded
    case h_2 => cases answered

theorem Site.doc_of_verdict {candidates : List String}
    (found : site.verdict lower candidates = .found (.doc doc)) :
    site.docs.get doc.nameDotLower = some doc := by
  rw [Site.verdict] at found
  split at found
  case h_1 candidate first => exact Site.doc_of_answer found
  case h_2 => cases found

/-! ## What the dictionary holds -/

/-- The entry that a lookup writes. -/
inductive Wrote (lower : String → String) (site : Site) (name : String) : Answer → Prop where
  | found (doc : Doc) (found : site.verdict lower (candidates name) = .found (.doc doc)) :
      Wrote lower site name (.doc doc)
  | several (nr : Nat) (several : site.verdict lower (candidates name) = .several nr) :
      Wrote lower site name .missing

/-- Entries were loaded from the site, or written by lookups as the loaded site answers. -/
structure Inv (lower : String → String) (site : Site) (docs : Docs) : Prop where
  loaded : ∀ key entry, docs.get key = some entry → entry.writer = none →
    ∃ doc, site.docs.get key = some doc ∧ entry.answer = .doc doc
  kept : ∀ key, site.docs.get key ≠ none → docs.get key ≠ none
  written : ∀ key entry writer, docs.get key = some entry → entry.writer = some writer →
    site.docs.get writer = none ∧ Wrote lower site writer entry.answer

theorem get_fresh : site.fresh.get name =
    (site.docs.get name).map (fun doc => ⟨.doc doc, none⟩) := by
  show (site.docs.entries.map (fun entry => (entry.1, (⟨.doc entry.2, none⟩ : Entry)))).lookup
    name = (site.docs.entries.lookup name).map (fun doc => ⟨.doc doc, none⟩)
  induction site.docs.entries with
  | nil => rfl
  | cons entry entries induction =>
      rw [List.map_cons, Dict.lookup_cons, Dict.lookup_cons]
      split
      case isTrue => rfl
      case isFalse => exact induction

theorem inv_fresh : Inv lower site site.fresh where
  loaded key entry found _ := by
    rw [get_fresh, Option.map_eq_some_iff] at found
    obtain ⟨doc, loaded, rfl⟩ := found
    exact ⟨doc, loaded, rfl⟩
  kept key loaded := by
    rw [get_fresh, ne_eq, Option.map_eq_none_iff]
    exact loaded
  written key entry writer found isWritten := by
    rw [get_fresh, Option.map_eq_some_iff] at found
    obtain ⟨doc, loaded, rfl⟩ := found
    cases isWritten

theorem unspoiled_fresh : site.Unspoiled site.fresh name := by
  have unwritten : ∀ key entry, site.fresh.get key = some entry → entry.writer = none := by
    intro key entry found
    rw [get_fresh, Option.map_eq_some_iff] at found
    obtain ⟨doc, loaded, rfl⟩ := found
    rfl
  rw [Site.Unspoiled]
  split
  case h_1 entry found => exact .inl (unwritten name entry found)
  case h_2 =>
    intro key entry found isWritten
    exact absurd (unwritten key entry found) isWritten

/-- A document of an entry is one of the site. -/
theorem Inv.of_site (inv : Inv lower site docs) {key : String} {entry : Entry}
    (found : docs.get key = some entry) (isDoc : entry.answer = .doc doc) :
    site.docs.get doc.nameDotLower = some doc := by
  cases writer : entry.writer with
  | none =>
      obtain ⟨other, loaded, answer⟩ := inv.loaded key entry found writer
      rw [isDoc] at answer
      cases answer
      rw [site.named _ _ loaded]
      exact loaded
  | some name =>
      have wrote := (inv.written key entry name found writer).2
      rw [isDoc] at wrote
      cases wrote with
      | found _ verdict => exact Site.doc_of_verdict verdict

/-- An entry that a lookup finds where the site has one too was loaded. -/
def Intact (site : Site) (docs : Docs) : Prop :=
  ∀ key doc, site.docs.get key = some doc → docs.get key = some ⟨.doc doc, none⟩

/-- The dictionary answers a candidate as the loaded site does. -/
structure Agrees (site : Site) (docs : Docs) (candidate : String) : Prop where
  named : ∀ doc, site.docs.get candidate = some doc →
    docs.get candidate = some ⟨.doc doc, none⟩
  unnamed : site.docs.get candidate = none → docs.get candidate = none
  none : site.ending candidate = [] → hits docs candidate = []
  one : ∀ key doc, site.ending candidate = [(key, doc)] →
    hits docs candidate = [(key, ⟨.doc doc, Option.none⟩)]
  several : 2 ≤ (site.ending candidate).length → 2 ≤ (hits docs candidate).length

/-- What is not seen does not change an answer. -/
theorem agrees_of_unspoiled (inv : Inv lower site docs) (absent : docs.get name = none)
    (unspoiled : site.Unspoiled docs name) (variant : candidate ∈ variants name) :
    Agrees site docs candidate := by
  rw [Site.Unspoiled, absent] at unspoiled
  have intact : Intact site docs := by
    intro key doc loaded
    have kept : site.docs.get key ≠ none := by
      rw [loaded]
      exact Option.some_ne_none doc
    obtain ⟨entry, found⟩ := Option.ne_none_iff_exists'.mp (inv.kept key kept)
    have unwritten : entry.writer = none := by
      by_contra isWritten
      exact kept (unspoiled key entry found isWritten).1
    obtain ⟨other, otherLoaded, answer⟩ := inv.loaded key entry found unwritten
    rw [loaded] at otherLoaded
    cases otherLoaded
    rw [found, ← answer, ← unwritten]
  have hit : ∀ key doc, (key, doc) ∈ site.ending candidate →
      (key, (⟨.doc doc, none⟩ : Entry)) ∈ hits docs candidate := by
    intro key doc member
    obtain ⟨loaded, ends⟩ := Site.mem_ending.mp member
    exact mem_hits.mpr ⟨intact key doc loaded, doc, rfl, ends⟩
  have back : ∀ entry ∈ hits docs candidate, ∃ doc, entry.2.answer = .doc doc ∧
      (doc.nameDotLower, doc) ∈ site.ending candidate := by
    intro entry member
    obtain ⟨found, doc, isDoc, ends⟩ := mem_hits.mp member
    exact ⟨doc, isDoc, Site.mem_ending.mpr ⟨inv.of_site found isDoc, ends⟩⟩
  constructor
  case named => exact intact candidate
  case unnamed =>
    intro unnamed
    cases found : docs.get candidate with
    | none => rfl
    | some entry =>
        cases writer : entry.writer with
        | none =>
            obtain ⟨doc, loaded, -⟩ := inv.loaded candidate entry found writer
            rw [unnamed] at loaded
            cases loaded
        | some other =>
            have isWritten : entry.writer ≠ none := by
              rw [writer]
              exact Option.some_ne_none other
            exact absurd variant (unspoiled candidate entry found isWritten).2.1
  case none =>
    intro empty
    apply List.eq_nil_iff_forall_not_mem.mpr
    intro entry member
    obtain ⟨doc, -, ending⟩ := back entry member
    rw [empty] at ending
    cases ending
  case one =>
    intro key doc alone
    apply Dict.filter_eq_singleton
    · apply hit
      rw [alone]
      exact List.mem_singleton_self _
    · intro entry member
      obtain ⟨other, isDoc, ending⟩ := back entry member
      obtain ⟨found, -⟩ := mem_hits.mp member
      rw [alone, List.mem_singleton] at ending
      cases ending
      have unwritten : entry.2.writer = none := by
        by_contra isWritten
        exact (unspoiled entry.1 entry.2 found isWritten).2.2 candidate variant _ doc isDoc alone
      obtain ⟨same, loaded, answer⟩ := inv.loaded entry.1 entry.2 found unwritten
      rw [isDoc] at answer
      cases answer
      obtain ⟨entryKey, entryAnswer, entryWriter⟩ := entry
      cases isDoc
      cases unwritten
      rw [site.named _ _ loaded]
  case several =>
    intro two
    have nodup := @Site.nodup_ending site candidate
    obtain ⟨first, second, rest, shape⟩ : ∃ first second rest,
        site.ending candidate = first :: second :: rest := by
      match shape : site.ending candidate, two with
      | first :: second :: rest, _ => exact ⟨first, second, rest, rfl⟩
    rw [shape] at hit nodup
    have apart : first ≠ second := by
      intro same
      apply (List.nodup_cons.mp nodup).1
      rw [same]
      exact List.mem_cons_self
    have firstHit := hit first.1 first.2 List.mem_cons_self
    have secondHit := hit second.1 second.2 (List.mem_cons_of_mem _ List.mem_cons_self)
    by_contra few
    match shape : hits docs candidate with
    | [] =>
        rw [shape] at firstHit
        cases firstHit
    | [entry] =>
        rw [shape, List.mem_singleton] at firstHit secondHit
        have same := firstHit.trans secondHit.symm
        apply apart
        cases first
        cases second
        cases same
        rfl
    | entry :: other :: entries =>
        rw [shape] at few
        simp at few

/-! ## One lookup -/

/-- Two verdicts that are equal, up to how many documents there are. -/
def Same : Verdict → Verdict → Prop
  | .several _, .several _ => True
  | left, right => left = right

theorem docGetCount_of_answered (agrees : Agrees site docs candidate)
    (plain : isSidebar lower candidate = false)
    (uncategorised : site.docs.get candidate ≠ none → cat = "")
    (answered : site.answered lower candidate = true) :
    ∃ nr answer, docGetCount lower docs candidate cat = some (nr, answer) ∧
      ((nr = 1 ∧ site.answer candidate = .found answer) ∨
        1 < nr ∧ ∃ count, site.answer candidate = .several count) := by
  rw [docGetCount, plain, Site.answer]
  cases loaded : site.docs.get candidate with
  | some doc =>
      have noCat : cat = "" := by
        apply uncategorised
        rw [loaded]
        exact Option.some_ne_none doc
      rw [agrees.named doc loaded]
      exact ⟨1, .doc doc, if_pos noCat, .inl ⟨rfl, rfl⟩⟩
  | none =>
      rw [agrees.unnamed loaded]
      match shape : site.ending candidate with
      | [] =>
          simp [Site.answered, plain, loaded, shape] at answered
      | [(key, doc)] =>
          rw [agrees.one key doc shape]
          exact ⟨1, .doc doc, rfl, .inl ⟨rfl, rfl⟩⟩
      | first :: second :: rest =>
          have two : 2 ≤ (hits docs candidate).length := by
            apply agrees.several
            rw [shape]
            simp
          match hit : hits docs candidate with
          | [] =>
              rw [hit] at two
              simp at two
          | entry :: entries =>
              rw [hit, List.length_cons] at two
              exact ⟨_, _, rfl, .inr ⟨by omega, _, rfl⟩⟩

theorem docGetCount_of_not_answered (agrees : Agrees site docs candidate)
    (unanswered : site.answered lower candidate = false) :
    docGetCount lower docs candidate cat = some (0, .missing) := by
  simp only [Site.answered, Bool.or_eq_false_iff, Bool.not_eq_false', List.isEmpty_iff,
    Option.isSome_eq_false_iff, Option.isNone_iff_eq_none] at unanswered
  obtain ⟨⟨plain, unnamed⟩, empty⟩ := unanswered
  rw [docGetCount, plain, agrees.unnamed unnamed, agrees.none empty]
  rfl

/-- The search ends as the loaded site answers. -/
theorem search_same {candidates : List String}
    (agrees : ∀ candidate ∈ candidates, Agrees site docs candidate)
    (decides : ∀ candidate, candidates.find? (site.answered lower) = some candidate →
      isSidebar lower candidate = false ∧ (site.docs.get candidate ≠ none → cat = "")) :
    Same (search lower docs cat candidates) (site.verdict lower candidates) := by
  induction candidates with
  | nil => rfl
  | cons candidate candidates induction =>
      obtain ⟨first, others⟩ := List.forall_mem_cons.mp agrees
      rw [search, Site.verdict]
      cases answered : site.answered lower candidate with
      | true =>
          rw [List.find?_cons_of_pos answered] at decides ⊢
          obtain ⟨plain, uncategorised⟩ := decides candidate rfl
          obtain ⟨nr, answer, counted, ⟨one, answers⟩ | ⟨many, count, answers⟩⟩ :=
            docGetCount_of_answered first plain uncategorised answered
          · rw [counted]
            simp only [one, answers, if_true]
            rfl
          · have notOne : nr ≠ 1 := by omega
            rw [counted]
            simp only [notOne, many, answers, if_true, if_false]
            trivial
      | false =>
          have skip : ¬ site.answered lower candidate = true := by simp [answered]
          rw [List.find?_cons_of_neg skip] at decides ⊢
          rw [docGetCount_of_not_answered first answered]
          exact induction others decides

/-- What is seen of a lookup that finds nothing. -/
def unfound (die : Bool) : Observed :=
  if die then .notFound else .answer .missing

/-- What the loaded site is seen to do. -/
def Site.expected (lower : String → String) (site : Site) (name : String) (die : Bool) :
    Observed :=
  match site.docs.get name with
  | some doc => .answer (.doc doc)
  | none =>
      match site.verdict lower (candidates name) with
      | .found answer => .answer answer
      | .several _ => unfound die
      | .nothing => unfound die
      | .broken => .broken

/-- The loaded site never breaks off, and what it finds is a document. -/
theorem Site.verdict_cases (site : Site) (candidates : List String) :
    (∃ doc, site.verdict lower candidates = .found (.doc doc)) ∨
      (∃ nr, site.verdict lower candidates = .several nr) ∨
        site.verdict lower candidates = .nothing := by
  rw [Site.verdict]
  split
  case h_1 candidate first =>
    rw [Site.answer]
    split
    case h_1 doc loaded => exact .inl ⟨doc, rfl⟩
    case h_2 =>
      split
      case h_1 key doc alone => exact .inl ⟨doc, rfl⟩
      case h_2 => exact .inr (.inl ⟨_, rfl⟩)
  case h_2 => exact .inr (.inr rfl)

variable {die : Bool}

/-- How a lookup ends: what is seen of it, and the dictionary behind it. -/
def Ends (computation : EStateM Exn Docs Result) (docs : Docs) (seen : Observed)
    (after : Docs) : Prop :=
  observe (computation docs) = seen ∧ final computation docs = after

theorem fail_ends (name : String) (nr : Nat) : Ends (fail name nr die) docs (unfound die) docs := by
  cases die with
  | true => exact ⟨rfl, rfl⟩
  | false => exact ⟨rfl, rfl⟩

/-- The entry that a lookup leaves behind. -/
def Leaves (lower : String → String) (site : Site) (docs : Docs) (name : String)
    (after : Docs) : Prop :=
  after = docs ∨ ∃ answer, Wrote lower site name answer ∧
    after = docs.put (savedAs name) ⟨answer, some name⟩

theorem docGetCandidates_ends
    (same : Same (search lower docs cat (candidates name)) (site.verdict lower (candidates name)))
    (unnamed : site.docs.get name = none) :
    ∃ after, Ends (docGetCandidates lower name cat die) docs
        (site.expected lower name die) after ∧
      Leaves lower site docs name after := by
  rw [Site.expected, unnamed]
  obtain ⟨doc, verdict⟩ | ⟨nr, verdict⟩ | verdict :=
    @Site.verdict_cases lower site (candidates name)
  · rw [verdict] at same ⊢
    have searched : search lower docs cat (candidates name) = .found (.doc doc) := by
      cases found : search lower docs cat (candidates name) <;> rw [found] at same <;> cases same
      rfl
    apply Exists.intro (docs.put (savedAs name) ⟨.doc doc, some name⟩)
    constructor
    · have done : docGetCandidates lower name cat die docs =
          .ok (.answer (.doc doc)) (docs.put (savedAs name) ⟨.doc doc, some name⟩) := by
        simp only [docGetCandidates, get_seq, searched]
        rfl
      exact ⟨by rw [done]; rfl, final_of_ok done⟩
    · exact .inr ⟨.doc doc, .found doc verdict, rfl⟩
  · rw [verdict] at same ⊢
    obtain ⟨count, searched⟩ : ∃ count,
        search lower docs cat (candidates name) = .several count := by
      cases found : search lower docs cat (candidates name) with
      | several count => exact ⟨count, rfl⟩
      | broken =>
          rw [found] at same
          cases same
      | found answer =>
          rw [found] at same
          cases same
      | nothing =>
          rw [found] at same
          cases same
    apply Exists.intro (docs.put (savedAs name) ⟨.missing, some name⟩)
    constructor
    · have done : docGetCandidates lower name cat die docs = fail (savedAs name) count die
          (docs.put (savedAs name) ⟨.missing, some name⟩) := by
        simp only [docGetCandidates, get_seq, searched]
        rfl
      obtain ⟨seen, after⟩ := @fail_ends (docs.put (savedAs name) ⟨.missing, some name⟩) die
        (savedAs name) count
      rw [Ends, final, done, ← final]
      exact ⟨seen, after⟩
    · exact .inr ⟨.missing, .several nr verdict, rfl⟩
  · rw [verdict] at same ⊢
    have searched : search lower docs cat (candidates name) = .nothing := by
      cases found : search lower docs cat (candidates name) <;> rw [found] at same <;> cases same
    apply Exists.intro docs
    constructor
    · have done : docGetCandidates lower name cat die docs = fail (savedAs name) 0 die docs := by
        simp only [docGetCandidates, get_seq, searched]
      rw [Ends, final, done, ← final]
      exact fail_ends (savedAs name) 0
    · exact .inl rfl

theorem mem_variants_of_candidate (member : candidate ∈ candidates name) :
    candidate ∈ variants name :=
  List.mem_append_left _ member

theorem sibling_mem_variants (index : endsWith name "index" = true) :
    siblingReadme name ∈ variants name := by
  rw [variants, if_pos index]
  exact List.mem_append_right _ List.mem_cons_self

/-- The readme next to an index does not end the lookup. -/
theorem sibling_count (agrees : Agrees site docs (siblingReadme name))
    (none : site.NoSibling lower name) (index : endsWith name "index" = true) :
    ∃ nr answer, docGetCount lower docs (siblingReadme name) cat = some (nr, answer) ∧
      nr ≠ 1 := by
  obtain ⟨plain, unnamed, notOne⟩ := none index
  by_cases empty : site.ending (siblingReadme name) = []
  case pos =>
    refine ⟨0, .missing, docGetCount_of_not_answered agrees ?_, by omega⟩
    simp [Site.answered, plain, unnamed, empty]
  case neg =>
    have answered : site.answered lower (siblingReadme name) = true := by
      simp [Site.answered, empty]
    obtain ⟨nr, answer, counted, ⟨-, answers⟩ | ⟨many, -⟩⟩ :=
      @docGetCount_of_answered lower site docs cat (siblingReadme name) agrees plain
        (fun named => absurd unnamed named) answered
    · rw [Site.answer, unnamed] at answers
      dsimp only at answers
      split at answers
      case h_1 alone =>
        rw [alone] at notOne
        simp at notOne
      case h_2 => cases answers
    · exact ⟨nr, answer, counted, by omega⟩

/-- Behind sound lookups a lookup ends as on the loaded site. -/
theorem docGet_ends (inv : Inv lower site docs) (given : Name)
    (plain : site.Plain lower (cleaned lower given) cat)
    (unspoiled : site.Unspoiled docs (cleaned lower given)) :
    ∃ after, Ends (docGet lower given cat die) docs
        (site.expected lower (cleaned lower given) die) after ∧
      (after = docs ∨ site.docs.get (cleaned lower given) = none ∧
        Leaves lower site docs (cleaned lower given) after) := by
  cases held : docs.get (cleaned lower given) with
  | some entry =>
      have returned : Ends (docGet lower given cat die) docs
          (if entry.answer = .missing then unfound die else .answer entry.answer) docs := by
        have done : docGet lower given cat die docs =
            if entry.answer = .missing ∧ die = true then
              .error (.input (.other ("Cannot find doc with name:" ++ cleaned lower given))) docs
            else .ok (.answer entry.answer) docs := by
          simp only [docGet, get_seq, held]
          split
          case isTrue => rfl
          case isFalse => rfl
        rw [Ends, final, done]
        by_cases missing : entry.answer = .missing
        · cases die with
          | true => simp [missing, observe, unfound]
          | false => simp [missing, observe, unfound]
        · simp [missing, observe]
      rw [Site.Unspoiled, held] at unspoiled
      rcases unspoiled with loaded | asked
      · obtain ⟨doc, named, answer⟩ := inv.loaded _ entry held loaded
        rw [answer, if_neg (by simp)] at returned
        rw [Site.expected, named]
        exact ⟨docs, returned, .inl rfl⟩
      · obtain ⟨unnamed, wrote⟩ := inv.written _ entry _ held asked
        rw [Site.expected, unnamed]
        cases wrote' : entry.answer with
        | doc doc =>
            rw [wrote'] at wrote returned
            cases wrote with
            | found _ verdict =>
                rw [verdict]
                rw [if_neg (by simp)] at returned
                exact ⟨docs, returned, .inl rfl⟩
        | missing =>
            rw [wrote'] at wrote returned
            cases wrote with
            | several nr verdict =>
                rw [verdict]
                rw [if_pos rfl] at returned
                exact ⟨docs, returned, .inl rfl⟩
        | blank =>
            rw [wrote'] at wrote
            cases wrote
  | none =>
      have unnamed : site.docs.get (cleaned lower given) = none := by
        by_contra named
        exact inv.kept _ named held
      have agrees : ∀ candidate ∈ variants (cleaned lower given),
          Agrees site docs candidate := by
        intro candidate variant
        exact agrees_of_unspoiled inv held unspoiled variant
      obtain ⟨noSibling, decides⟩ := plain.resolve_left (not_not.mpr unnamed)
      have same := @search_same lower site docs cat (candidates (cleaned lower given))
        (fun candidate member => agrees candidate (mem_variants_of_candidate member))
        (fun candidate first => ⟨(decides candidate first).1, (decides candidate first).2.1⟩)
      obtain ⟨after, ends, leaves⟩ := @docGetCandidates_ends lower site docs
        (cleaned lower given) cat die same unnamed
      have entered : docGet lower given cat die docs =
          docGetCandidates lower (cleaned lower given) cat die docs := by
        by_cases index : endsWith (cleaned lower given) "index" = true
        case pos =>
          obtain ⟨nr, answer, counted, notOne⟩ := @sibling_count lower site docs _ cat
            (agrees _ (sibling_mem_variants index)) noSibling index
          simp only [docGet, get_seq, held, index, if_true, counted, notOne, if_false]
        case neg =>
          simp only [docGet, get_seq, held, index]
          rfl
      refine ⟨after, ?_, .inr ⟨unnamed, leaves⟩⟩
      rw [Ends, final, entered, ← final]
      exact ends

/-- A lookup that ends so keeps what the dictionary holds. -/
theorem inv_of_leaves {after : Docs} (inv : Inv lower site docs)
    (unnamed : site.docs.get name = none) (leaves : Leaves lower site docs name after) :
    Inv lower site after := by
  rcases leaves with rfl | ⟨answer, wrote, rfl⟩
  · exact inv
  · constructor
    case loaded =>
      intro key entry found unwritten
      rw [Dict.get_put] at found
      split at found
      case isTrue =>
        cases found
        cases unwritten
      case isFalse => exact inv.loaded key entry found unwritten
    case kept =>
      intro key loaded
      rw [Dict.get_put]
      split
      case isTrue => exact Option.some_ne_none _
      case isFalse => exact inv.kept key loaded
    case written =>
      intro key entry writer found isWritten
      rw [Dict.get_put] at found
      split at found
      case isTrue =>
        cases found
        cases isWritten
        exact ⟨unnamed, wrote⟩
      case isFalse => exact inv.written key entry writer found isWritten

theorem self_mem_variants (name : String) : name ∈ variants name := by
  apply mem_variants_of_candidate
  rw [candidates, List.append_assoc, List.append_assoc]
  exact List.mem_append_left _ List.mem_cons_self

theorem meets_unfound (unfoundName : site.Unfound name) :
    site.Meets name die (unfound die) := by
  cases die with
  | true => exact ⟨rfl, unfoundName⟩
  | false => exact ⟨rfl, unfoundName⟩

/-- Where no candidate has an answer there is nothing to be found. -/
theorem unfound_of_undecided (undecided : site.deciding lower name = none)
    (noSibling : site.NoSibling lower name) : site.Unfound name := by
  have candidate_none : ∀ candidate ∈ candidates name,
      site.docs.get candidate = none ∧ site.ending candidate = [] := by
    intro candidate member
    have unanswered := List.find?_eq_none.mp undecided candidate member
    rw [Site.answered, Bool.not_eq_true, Bool.or_eq_false_iff, Bool.or_eq_false_iff] at unanswered
    exact ⟨by simpa using unanswered.1.2, by simpa using unanswered.2⟩
  by_cases index : endsWith name "index" = true
  case neg =>
    have only : variants name = candidates name := by
      rw [variants, if_neg index, List.append_nil]
    rw [Site.Unfound, only]
    constructor
    · intro variant member
      exact (candidate_none variant member).1
    · right
      intro variant member
      exact (candidate_none variant member).2
  case pos =>
    obtain ⟨-, siblingUnnamed, notOne⟩ := noSibling index
    have either : ∀ variant ∈ variants name,
        variant ∈ candidates name ∨ variant = siblingReadme name := by
      intro variant member
      rw [variants, if_pos index, List.mem_append, List.mem_singleton] at member
      exact member
    constructor
    · intro variant member
      rcases either variant member with isCandidate | isSibling
      · exact (candidate_none variant isCandidate).1
      · rw [isSibling]
        exact siblingUnnamed
    · by_cases empty : site.ending (siblingReadme name) = []
      case pos =>
        right
        intro variant member
        rcases either variant member with isCandidate | isSibling
        · exact (candidate_none variant isCandidate).2
        · rw [isSibling]
          exact empty
      case neg =>
        left
        have some := List.length_pos_iff.mpr empty
        exact ⟨siblingReadme name, sibling_mem_variants index, by omega⟩

/-- What the loaded site is expected to do is what it should find. -/
theorem meets_expected (plain : site.Plain lower name cat) :
    site.Meets name die (site.expected lower name die) := by
  rw [Site.expected]
  cases named : site.docs.get name with
  | some doc => exact .inl ⟨name, self_mem_variants name, named⟩
  | none =>
      obtain ⟨noSibling, decides⟩ := plain.resolve_left (not_not.mpr named)
      rw [Site.verdict]
      cases first : site.deciding lower name with
      | none =>
          have none : (candidates name).find? (site.answered lower) = none := first
          rw [none]
          exact meets_unfound (unfound_of_undecided first noSibling)
      | some candidate =>
          have found : (candidates name).find? (site.answered lower) = some candidate := first
          obtain ⟨plainName, -, ending⟩ := decides candidate first
          have variant := mem_variants_of_candidate (List.mem_of_find?_eq_some found)
          have answered := List.find?_some found
          rw [found]
          dsimp only
          rw [Site.answer]
          cases loaded : site.docs.get candidate with
          | some doc => exact .inl ⟨candidate, variant, loaded⟩
          | none =>
              have either := ending loaded
              match shape : site.ending candidate with
              | [] => simp [Site.answered, plainName, loaded, shape] at answered
              | [(key, doc)] =>
                  rcases either with unnamed | ⟨otherKey, other, alone, isVariant⟩
                  · exact .inr ⟨unnamed, candidate, variant, key, shape⟩
                  · rw [shape] at alone
                    cases alone
                    have member : (key, doc) ∈ site.ending candidate := by
                      rw [shape]
                      exact List.mem_singleton_self _
                    have isLoaded := (Site.mem_ending.mp member).1
                    rw [← site.named _ _ isLoaded] at isLoaded
                    exact .inl ⟨doc.nameDotLower, isVariant, isLoaded⟩
              | second :: third :: rest =>
                  apply meets_unfound
                  rcases either with unnamed | ⟨otherKey, other, alone, -⟩
                  · refine ⟨unnamed, .inl ⟨candidate, variant, ?_⟩⟩
                    rw [shape]
                    simp
                  · rw [shape] at alone
                    cases alone

end

/-! ## Every sequence of lookups -/

/-- A site of one document in a directory. -/
def oneDocument : Site where
  docs := ⟨[("x.foo", ⟨"x.foo", "x/foo.md"⟩)], by decide⟩
  named key doc found := by
    have member := Dict.get_eq_some_iff.mp found
    rw [List.mem_singleton] at member
    cases member
    rfl

end JumpscaleX.DocSites
