import Mathlib.Data.List.Basic

/-!
# Texts in parts

The parts of a text between separators, with the empty ones left out, and texts
that are joined from parts.  A text that is joined from parts without the
separator has these parts.
-/

namespace Separated

variable {α : Type} [DecidableEq α] {separator : α}

instance decidableMemParts (part : List α) (parts : List (List α)) : Decidable (part ∈ parts) :=
  List.instDecidableMemOfLawfulBEq part parts

/-- Split at a separator and drop the empty parts. -/
def parts (separator : α) (text : List α) : List (List α) :=
  (text.splitOn separator).filter (fun part => !part.isEmpty)

/-- Put a separator between texts. -/
def join (separator : α) (texts : List (List α)) : List α :=
  [separator].intercalate texts

/-- Put another element in the place of one. -/
def replace (old new : α) (text : List α) : List α :=
  text.map fun item => if item = old then new else item

@[simp] theorem parts_nil : parts separator [] = [] := rfl

@[simp] theorem parts_cons_separator (text : List α) :
    parts separator (separator :: text) = parts separator text := by
  simp [parts, List.splitOn_cons_eq_if_modifyHead]

theorem parts_append_separator (first rest : List α) :
    parts separator (first ++ separator :: rest) =
      parts separator first ++ parts separator rest := by
  rw [parts, List.splitOn_append_cons_self, List.filter_append, parts, parts]

theorem parts_of_not_mem {text : List α} (some : text ≠ []) (absent : separator ∉ text) :
    parts separator text = [text] := by
  rw [parts, List.splitOn_eq_singleton absent]
  simp [some]

theorem not_mem_of_mem_splitOn {text part : List α} (member : part ∈ text.splitOn separator) :
    separator ∉ part := by
  induction text generalizing part with
  | nil =>
      rw [List.splitOn_nil, List.mem_singleton] at member
      simp [member]
  | cons item text induction =>
      rw [List.splitOn_cons_eq_if_modifyHead] at member
      by_cases same : item = separator
      · simp only [same, beq_self_eq_true, if_true, List.mem_cons] at member
        rcases member with empty | later
        · simp [empty]
        · exact induction later
      · simp only [same, beq_iff_eq, if_false] at member
        cases split : text.splitOn separator with
        | nil => exact (List.splitOn_ne_nil separator text split).elim
        | cons first rest =>
            rw [split, List.modifyHead_cons, List.mem_cons] at member
            rcases member with head | later
            · have absent : separator ∉ first :=
                induction (by rw [split]; exact List.mem_cons_self)
              simp [head, absent, Ne.symm same]
            · exact induction (by rw [split]; exact List.mem_cons_of_mem _ later)

/-- A part takes its items from the text. -/
theorem mem_of_mem_splitOn {text part : List α} {item : α}
    (member : part ∈ text.splitOn separator) (inside : item ∈ part) : item ∈ text := by
  induction text generalizing part with
  | nil =>
      rw [List.splitOn_nil, List.mem_singleton] at member
      rw [member] at inside
      exact inside
  | cons first text induction =>
      rw [List.splitOn_cons_eq_if_modifyHead] at member
      by_cases same : first = separator
      · simp only [same, beq_self_eq_true, if_true, List.mem_cons] at member
        rcases member with empty | later
        · simp [empty] at inside
        · exact List.mem_cons_of_mem _ (induction later inside)
      · simp only [same, beq_iff_eq, if_false] at member
        cases split : text.splitOn separator with
        | nil => exact (List.splitOn_ne_nil separator text split).elim
        | cons head rest =>
            rw [split, List.modifyHead_cons, List.mem_cons] at member
            rcases member with whole | later
            · rw [whole, List.mem_cons] at inside
              rcases inside with first | deeper
              · exact List.mem_cons.mpr (.inl first)
              · apply List.mem_cons_of_mem
                exact induction (by rw [split]; exact List.mem_cons_self) deeper
            · apply List.mem_cons_of_mem
              exact induction (by rw [split]; exact List.mem_cons_of_mem _ later) inside

theorem of_mem_parts {text part : List α} (member : part ∈ parts separator text) :
    part ≠ [] ∧ separator ∉ part := by
  obtain ⟨split, some⟩ := List.mem_filter.mp member
  exact ⟨by simpa using some, not_mem_of_mem_splitOn split⟩

/-- A text is its own only part when it is not empty and has no separator. -/
theorem parts_eq_self_iff {text : List α} :
    parts separator text = [text] ↔ text ≠ [] ∧ separator ∉ text := by
  constructor
  · intro same
    exact of_mem_parts (by rw [same]; exact List.mem_singleton_self text)
  · intro clean
    exact parts_of_not_mem clean.1 clean.2

@[simp] theorem join_singleton (text : List α) : join separator [text] = text := by
  simp [join]

theorem join_cons (text : List α) {texts : List (List α)} (some : texts ≠ []) :
    join separator (text :: texts) = text ++ separator :: join separator texts := by
  cases texts with
  | nil => exact (some rfl).elim
  | cons next rest => simp [join]

/-- Fewer texts join to a part of the whole. -/
theorem join_sublist {some all : List (List α)} (part : some.Sublist all) :
    (join separator some).Sublist (join separator all) := by
  induction part with
  | slnil => exact List.Sublist.refl _
  | @cons some all text part induction =>
      cases all with
      | nil =>
          rw [List.sublist_nil.mp part]
          exact List.nil_sublist _
      | cons next rest =>
          rw [join_cons text (by simp)]
          exact (induction.cons separator).trans (List.sublist_append_right text _)
  | @cons_cons some all text part induction =>
      cases some with
      | nil =>
          cases all with
          | nil => exact List.Sublist.refl _
          | cons next rest =>
              rw [join_singleton, join_cons text (by simp)]
              exact List.sublist_append_left text _
      | cons next rest =>
          have more : all ≠ [] := by
            intro empty
            rw [empty] at part
            exact absurd part.length_le (by simp)
          rw [join_cons text (by simp), join_cons text more]
          exact (List.Sublist.refl text).append (induction.cons_cons separator)

theorem splitOn_join {texts : List (List α)} (some : texts ≠ []) :
    (join separator texts).splitOn separator =
      texts.flatMap (fun text => text.splitOn separator) := by
  induction texts with
  | nil => exact (some rfl).elim
  | cons text texts induction =>
      cases texts with
      | nil => simp
      | cons next rest =>
          rw [join_cons text (by simp), List.splitOn_append_cons_self, induction (by simp)]
          rfl

/-- The parts of a joined text are those of its texts. -/
theorem parts_join (texts : List (List α)) :
    parts separator (join separator texts) = texts.flatMap (parts separator) := by
  cases texts with
  | nil => rfl
  | cons text rest =>
      rw [parts, splitOn_join (by simp), List.filter_flatMap]
      rfl

theorem splitOn_injective {left right : List α}
    (same : left.splitOn separator = right.splitOn separator) : left = right := by
  have joined : [separator].intercalate (left.splitOn separator) = left :=
    List.intercalate_splitOn separator
  rw [← joined, same, List.intercalate_splitOn]

theorem splitOn_inj {left right : List α} :
    left.splitOn separator = right.splitOn separator ↔ left = right :=
  ⟨splitOn_injective, fun same => by rw [same]⟩

/-- Of two texts that are equal, the parts before the first separator are. -/
theorem append_separator_inj {first second rest others : List α} (absent : separator ∉ first)
    (alsoAbsent : separator ∉ second) :
    first ++ separator :: rest = second ++ separator :: others ↔
      first = second ∧ rest = others := by
  induction first generalizing second with
  | nil =>
      cases second with
      | nil => simp
      | cons item items =>
          rw [List.mem_cons, not_or] at alsoAbsent
          simp [alsoAbsent.1]
  | cons item items induction =>
      rw [List.mem_cons, not_or] at absent
      cases second with
      | nil => simp [Ne.symm absent.1]
      | cons other items =>
          rw [List.mem_cons, not_or] at alsoAbsent
          rw [List.cons_append, List.cons_append, List.cons.injEq, List.cons.injEq,
            induction absent.2 alsoAbsent.2, and_assoc]

/-- A text has one place where a separator that it has once can stand. -/
theorem append_single_separator_inj {first second rest others : List α}
    (absent : separator ∉ first) (once : separator ∉ rest) :
    second ++ separator :: others = first ++ separator :: rest ↔
      second = first ∧ others = rest := by
  constructor
  · intro same
    rcases List.append_eq_append_iff.mp same with ⟨middle, isFirst, tails⟩ | ⟨middle, isSecond, tails⟩
    · cases middle with
      | nil =>
          rw [List.append_nil] at isFirst
          exact ⟨isFirst.symm, (List.cons.inj tails).2⟩
      | cons head middle =>
          rw [← (List.cons.inj tails).1] at isFirst
          rw [isFirst] at absent
          exact absurd (List.mem_append_right _ List.mem_cons_self) absent
    · cases middle with
      | nil =>
          rw [List.append_nil] at isSecond
          exact ⟨isSecond, (List.cons.inj tails).2.symm⟩
      | cons head middle =>
          rw [(List.cons.inj tails).2] at once
          exact absurd (List.mem_append_right _ List.mem_cons_self) once
  · rintro ⟨rfl, rfl⟩
    rfl

/-- A new separator in the place of the old one has the same parts. -/
theorem parts_replace {old new : α} {text : List α} (absent : new ∉ text) :
    parts new (replace old new text) = parts old text := by
  have split : (replace old new text).splitOn new = text.splitOn old := by
    induction text with
    | nil => rfl
    | cons item text induction =>
        rw [List.mem_cons, not_or] at absent
        rw [replace, List.map_cons, ← replace, List.splitOn_cons_eq_if_modifyHead,
          List.splitOn_cons_eq_if_modifyHead, induction absent.2]
        by_cases same : item = old
        · simp [same]
        · simp [same, Ne.symm absent.1]
  rw [parts, split, parts]

end Separated
