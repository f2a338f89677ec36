import Mathlib.Data.List.Basic

/-!
# Lazy groups of patterns

The group `(.*?)` of a regular expression takes the fewest characters of a line behind
which the rest of the expression matches.
-/

namespace LazyGroup

variable {α : Type}

/-- The fewest characters of a line behind which `close` matches, and what it gives there. -/
def read (close : List Char → Option α) : List Char → Option (List Char × α)
  | [] => (close []).map (fun closed => ([], closed))
  | char :: rest =>
      match close (char :: rest) with
      | some closed => some ([], closed)
      | none =>
          if char = '\n' then none
          else (read close rest).map (fun found => (char :: found.1, found.2))

/-- A character, and the rest of the expression behind it. -/
def closeAt (stop : Char) (next : List Char → Option α) : List Char → Option α
  | [] => none
  | char :: rest => if char = stop then next rest else none

/-- The end of the text, behind one of some endings. -/
def closeEnd (endings : List (List Char)) (rest : List Char) : Option Unit :=
  if rest ∈ endings then some () else none

@[simp] theorem closeAt_nil (stop : Char) (next : List Char → Option α) :
    closeAt stop next [] = none :=
  rfl

@[simp] theorem closeAt_stop (stop : Char) (next : List Char → Option α) (rest : List Char) :
    closeAt stop next (stop :: rest) = next rest :=
  if_pos rfl

theorem closeAt_cons_of_ne {stop char : Char} (different : char ≠ stop)
    (next : List Char → Option α) (rest : List Char) :
    closeAt stop next (char :: rest) = none :=
  if_neg different

theorem closeAt_eq_some {stop : Char} {next : List Char → Option α} {text : List Char}
    {closed : α} (found : closeAt stop next text = some closed) :
    ∃ rest, text = stop :: rest ∧ next rest = some closed := by
  cases text with
  | nil => cases found
  | cons char rest =>
      rw [closeAt] at found
      split at found
      case isTrue same => exact ⟨rest, by rw [same], found⟩
      case isFalse => cases found

theorem closeEnd_eq_some_iff {endings : List (List Char)} {rest : List Char} {closed : Unit} :
    closeEnd endings rest = some closed ↔ rest ∈ endings := by
  rw [closeEnd]
  split
  case isTrue member => simp [member]
  case isFalse absent => simp [absent]

section

variable {close : List Char → Option α}

theorem read_of_close {text : List Char} {closed : α} (found : close text = some closed) :
    read close text = some ([], closed) := by
  cases text with
  | nil => rw [read, found, Option.map_some]
  | cons char rest => simp only [read, found]

/-- What a group takes: a part of a line, with no shorter part to end it. -/
theorem read_eq_some_iff {text group : List Char} {closed : α} :
    read close text = some (group, closed) ↔
      ∃ rest, text = group ++ rest ∧ close rest = some closed ∧ '\n' ∉ group ∧
        ∀ front back, group = front ++ back → back ≠ [] → close (back ++ rest) = none := by
  induction text generalizing group with
  | nil =>
      constructor
      · intro found
        simp only [read, Option.map_eq_some_iff, Prod.mk.injEq] at found
        obtain ⟨_, closes, rfl, rfl⟩ := found
        exact ⟨[], rfl, closes, List.not_mem_nil, fun front back parts some =>
          absurd (List.append_eq_nil_iff.mp parts.symm).2 some⟩
      · rintro ⟨rest, whole, closes, -, -⟩
        obtain ⟨rfl, rfl⟩ := List.append_eq_nil_iff.mp whole.symm
        exact read_of_close closes
  | cons char text induction =>
      cases isClosed : close (char :: text) with
      | some other =>
          rw [read_of_close isClosed]
          constructor
          · intro found
            cases found
            exact ⟨char :: text, rfl, isClosed, List.not_mem_nil, fun front back parts some =>
              absurd (List.append_eq_nil_iff.mp parts.symm).2 some⟩
          · rintro ⟨rest, whole, closes, -, shortest⟩
            cases group with
            | nil =>
                rw [whole] at isClosed
                exact congrArg some (congrArg (Prod.mk []) (Option.some.inj
                  (isClosed.symm.trans closes)))
            | cons first group =>
                have unclosed := shortest [] (first :: group) rfl (List.cons_ne_nil _ _)
                rw [← whole, isClosed] at unclosed
                cases unclosed
      | none =>
          simp only [read, isClosed]
          split
          case isTrue lineEnd =>
            constructor
            · intro found
              cases found
            · rintro ⟨rest, whole, closes, oneLine, -⟩
              cases group with
              | nil =>
                  rw [whole] at isClosed
                  rw [List.nil_append, closes] at isClosed
                  cases isClosed
              | cons first group =>
                  have same := (List.cons.inj whole).1
                  rw [← same, lineEnd] at oneLine
                  exact absurd List.mem_cons_self oneLine
          case isFalse inLine =>
            constructor
            · intro found
              obtain ⟨⟨taken, other⟩, isTaken, isFound⟩ := Option.map_eq_some_iff.mp found
              cases isFound
              obtain ⟨rest, rfl, closes, oneLine, shortest⟩ := induction.mp isTaken
              refine ⟨rest, rfl, closes,
                List.not_mem_cons_of_ne_of_not_mem (Ne.symm inLine) oneLine, ?_⟩
              intro front back parts some
              cases front with
              | nil =>
                  rw [List.nil_append] at parts
                  rw [← parts]
                  exact isClosed
              | cons first front => exact shortest front back (List.cons.inj parts).2 some
            · rintro ⟨rest, whole, closes, oneLine, shortest⟩
              cases group with
              | nil =>
                  rw [whole, List.nil_append, closes] at isClosed
                  cases isClosed
              | cons first group =>
                  obtain ⟨rfl, isRest⟩ := List.cons.inj whole
                  have later : read close text = some (group, closed) :=
                    induction.mpr ⟨rest, isRest, closes, List.not_mem_of_not_mem_cons oneLine,
                      fun front back parts some =>
                        shortest (char :: front) back (by rw [parts, List.cons_append]) some⟩
                  rw [later, Option.map_some]

/-- A group ends where the rest of the expression matches at all. -/
theorem read_isSome_iff {text : List Char} :
    (read close text).isSome = true ↔
      ∃ front rest, text = front ++ rest ∧ '\n' ∉ front ∧ (close rest).isSome = true := by
  constructor
  · intro found
    obtain ⟨⟨group, closed⟩, isFound⟩ := Option.isSome_iff_exists.mp found
    obtain ⟨rest, whole, closes, oneLine, -⟩ := read_eq_some_iff.mp isFound
    exact ⟨group, rest, whole, oneLine, Option.isSome_iff_exists.mpr ⟨closed, closes⟩⟩
  · rintro ⟨front, rest, rfl, oneLine, closes⟩
    induction front with
    | nil =>
        obtain ⟨closed, isClosed⟩ := Option.isSome_iff_exists.mp closes
        rw [List.nil_append, read_of_close isClosed]
        rfl
    | cons char front induction =>
        rw [List.mem_cons, not_or] at oneLine
        rw [List.cons_append]
        cases isClosed : close (char :: (front ++ rest)) with
        | some closed =>
            rw [read_of_close isClosed]
            rfl
        | none =>
            simp only [read, isClosed]
            rw [if_neg (Ne.symm oneLine.1), Option.isSome_map]
            exact induction oneLine.2

/-- A group may be longer. -/
theorem read_isSome_append {skipped text : List Char} (oneLine : '\n' ∉ skipped)
    (found : (read close text).isSome = true) : (read close (skipped ++ text)).isSome = true := by
  obtain ⟨front, rest, rfl, alsoOneLine, closes⟩ := read_isSome_iff.mp found
  refine read_isSome_iff.mpr ⟨skipped ++ front, rest, by rw [List.append_assoc], ?_, closes⟩
  rw [List.mem_append, not_or]
  exact ⟨oneLine, alsoOneLine⟩

/-- A group whose characters do not start the rest of the expression. -/
theorem read_append {group rest : List Char} {closed : α} (closes : close rest = some closed)
    (oneLine : '\n' ∉ group)
    (open' : ∀ char ∈ group, ∀ others, close (char :: others) = none) :
    read close (group ++ rest) = some (group, closed) := by
  refine read_eq_some_iff.mpr ⟨rest, rfl, closes, oneLine, ?_⟩
  intro front back parts some
  cases back with
  | nil => exact absurd rfl some
  | cons char back =>
      apply open'
      rw [parts]
      exact List.mem_append_right _ List.mem_cons_self

end

section

variable {stop : Char} {next : List Char → Option α}

theorem read_closeAt_append {group rest : List Char} {closed : α}
    (closes : next rest = some closed) (oneLine : '\n' ∉ group) (absent : stop ∉ group) :
    read (closeAt stop next) (group ++ stop :: rest) = some (group, closed) := by
  apply read_append
  · rw [closeAt_stop, closes]
  · exact oneLine
  · intro char member others
    apply closeAt_cons_of_ne
    rintro rfl
    exact absent member

theorem read_closeAt_eq_some {text group : List Char} {closed : α}
    (found : read (closeAt stop next) text = some (group, closed)) :
    ∃ rest, text = group ++ stop :: rest ∧ next rest = some closed := by
  obtain ⟨rest, rfl, closes, -, -⟩ := read_eq_some_iff.mp found
  obtain ⟨later, rfl, isNext⟩ := closeAt_eq_some closes
  exact ⟨later, rfl, isNext⟩

/-- A group before a character ends at the first one, where what follows may be longer. -/
theorem read_closeAt_first {front rest group : List Char} {closed : α}
    (absent : stop ∉ front) (inLine : stop ≠ '\n') (oneLine : '\n' ∉ front)
    (longer : ∀ skipped text, '\n' ∉ skipped → (next text).isSome = true →
      (next (skipped ++ text)).isSome = true)
    (found : read (closeAt stop next) (front ++ stop :: rest) = some (group, closed)) :
    group = front ∧ next rest = some closed := by
  obtain ⟨tail, whole, closes, groupLine, -⟩ := read_eq_some_iff.mp found
  obtain ⟨others, rfl, isNext⟩ := closeAt_eq_some closes
  have isSome : (next others).isSome = true := Option.isSome_iff_exists.mpr ⟨closed, isNext⟩
  have matches' : (next rest).isSome = true := by
    rcases List.append_eq_append_iff.mp whole with ⟨middle, isGroup, tails⟩ | ⟨middle, isFront, tails⟩
    · cases middle with
      | nil =>
          rw [(List.cons.inj tails).2]
          exact isSome
      | cons head middle =>
          have isRest : rest = (middle ++ [stop]) ++ others := by
            rw [(List.cons.inj tails).2, List.append_assoc]
            rfl
          rw [isRest]
          refine longer _ _ ?_ isSome
          rw [isGroup] at groupLine
          simp only [List.mem_append, List.mem_cons, not_or] at groupLine ⊢
          exact ⟨groupLine.2.2, Ne.symm inLine, List.not_mem_nil⟩
    · cases middle with
      | nil =>
          rw [← (List.cons.inj tails).2]
          exact isSome
      | cons head middle =>
          rw [isFront, ← (List.cons.inj tails).1] at absent
          exact absurd (List.mem_append_right _ List.mem_cons_self) absent
  obtain ⟨other, isOther⟩ := Option.isSome_iff_exists.mp matches'
  rw [read_closeAt_append isOther oneLine absent] at found
  cases found
  exact ⟨rfl, isOther⟩

theorem read_closeAt_of_not_mem {text : List Char} (absent : stop ∉ text) :
    read (closeAt stop next) text = none := by
  apply Option.eq_none_iff_forall_ne_some.mpr
  rintro ⟨group, closed⟩ found
  obtain ⟨rest, rfl, -⟩ := read_closeAt_eq_some found
  exact absent (List.mem_append_right _ List.mem_cons_self)

end

theorem read_closeEnd_append {endings : List (List Char)} {group ending : List Char}
    (member : ending ∈ endings) (oneLine : '\n' ∉ group)
    (open' : ∀ char ∈ group, ∀ other ∈ endings, other.head? ≠ some char) :
    read (closeEnd endings) (group ++ ending) = some (group, ()) := by
  apply read_append
  · exact closeEnd_eq_some_iff.mpr member
  · exact oneLine
  · intro char inGroup others
    exact if_neg (fun ends => open' char inGroup _ ends rfl)

theorem read_closeEnd_eq_some {endings : List (List Char)} {text group : List Char}
    {closed : Unit} (found : read (closeEnd endings) text = some (group, closed)) :
    ∃ ending ∈ endings, text = group ++ ending := by
  obtain ⟨ending, rfl, closes, -, -⟩ := read_eq_some_iff.mp found
  exact ⟨ending, closeEnd_eq_some_iff.mp closes, rfl⟩

end LazyGroup
