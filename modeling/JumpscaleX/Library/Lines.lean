import Mathlib.Data.List.Basic

/-!
# Texts of lines

A text as its terminated lines and what stands behind the last line break.  A search
at the starts of lines goes through them in turn, and the replacement of a
terminated line changes the lines that end in it.
-/

namespace Lines

variable {α : Type} {eol : α}

/-- Each line with its line break, and a rest without one. -/
def text (eol : α) (lines : List (List α)) (rest : List α) : List α :=
  lines.flatMap (· ++ [eol]) ++ rest

@[simp] theorem text_nil (rest : List α) : text eol [] rest = rest := rfl

@[simp] theorem text_cons (line : List α) (lines : List (List α)) (rest : List α) :
    text eol (line :: lines) rest = line ++ eol :: text eol lines rest := by
  simp [text]

theorem text_append (first second : List (List α)) (rest : List α) :
    text eol (first ++ second) rest = text eol first (text eol second rest) := by
  simp [text]

/-- Whether a search succeeds at the place where a line starts, and what it finds. -/
def search {β : Type} [DecidableEq α] (eol : α) (found : List α → Option β) :
    Bool → List α → Option β
  | true, [] => found []
  | false, [] => none
  | true, item :: items =>
      (found (item :: items)).or (search eol found (decide (item = eol)) items)
  | false, item :: items => search eol found (decide (item = eol)) items

/-- `str.replace` of a text that is not empty: occurrences from left to right that do
not overlap.  `skip` items of an occurrence are still to be passed. -/
def replace [DecidableEq α] (old new : List α) : Nat → List α → List α
  | _, [] => []
  | skip + 1, _ :: items => replace old new skip items
  | 0, item :: items =>
      if old.isPrefixOf (item :: items) then
        new ++ replace old new (old.length - 1) items
      else item :: replace old new 0 items

/-- A line whose end is replaced together with the line break behind it. -/
def replaceEnd [DecidableEq α] (eol : α) (entry new : List α) : List α → List α
  | [] => if [] = entry then new else [eol]
  | item :: items =>
      if item :: items = entry then new else item :: replaceEnd eol entry new items

variable [DecidableEq α]

theorem mem_text_iff {item : α} {lines : List (List α)} {rest : List α} (different : item ≠ eol) :
    item ∈ text eol lines rest ↔ (∃ line ∈ lines, item ∈ line) ∨ item ∈ rest := by
  simp [text, different]

omit [DecidableEq α] in
/-- Changes of lines that are not selected, and stay so, leave the selection. -/
theorem filter_map_eq {lines : List (List α)} {select : List α → Bool}
    {change : List α → List α}
    (same : ∀ line ∈ lines, select (change line) = select line ∧
      (select line = true → change line = line)) :
    (lines.map change).filter select = lines.filter select := by
  induction lines with
  | nil => rfl
  | cons line lines induction =>
      obtain ⟨⟨still, fixed⟩, others⟩ := List.forall_mem_cons.mp same
      rw [List.map_cons, List.filter_cons, List.filter_cons, still, induction others]
      split
      · rename_i selected
        rw [fixed selected]
      · rfl

/-- Every text is one of lines. -/
theorem exists_eq_text (eol : α) (items : List α) :
    ∃ lines rest, items = text eol lines rest ∧ (∀ line ∈ lines, eol ∉ line) ∧ eol ∉ rest := by
  induction items with
  | nil => exact ⟨[], [], rfl, by simp, by simp⟩
  | cons item items induction =>
      obtain ⟨lines, rest, same, clean, last⟩ := induction
      by_cases breaks : item = eol
      · refine ⟨[] :: lines, rest, ?_, ?_, last⟩
        · simp [same, breaks]
        · simpa using clean
      · cases lines with
        | nil =>
            refine ⟨[], item :: rest, ?_, by simp, ?_⟩
            · simp [same]
            · simp [Ne.symm breaks, last]
        | cons line lines =>
            refine ⟨(item :: line) :: lines, rest, ?_, ?_, last⟩
            · simp [same]
            · simpa [Ne.symm breaks] using clean

/-- The pieces between the line breaks. -/
theorem splitOn_text {lines : List (List α)} {rest : List α}
    (clean : ∀ line ∈ lines, eol ∉ line) (last : eol ∉ rest) :
    (text eol lines rest).splitOn eol = lines ++ [rest] := by
  induction lines with
  | nil => simpa using List.splitOn_eq_singleton last
  | cons line lines induction =>
      obtain ⟨first, others⟩ := List.forall_mem_cons.mp clean
      rw [text_cons, List.splitOn_append_cons_self, List.splitOn_eq_singleton first,
        induction others]
      rfl

section Search

variable {β : Type} {found : List α → Option β}

theorem search_false_of_not_mem {rest : List α} (absent : eol ∉ rest) :
    search eol found false rest = none := by
  induction rest with
  | nil => rfl
  | cons item rest induction =>
      rw [List.mem_cons, not_or] at absent
      simp [search, Ne.symm absent.1, induction absent.2]

theorem search_false_append {line : List α} (absent : eol ∉ line) (items : List α) :
    search eol found false (line ++ eol :: items) = search eol found true items := by
  induction line with
  | nil => simp [search]
  | cons item line induction =>
      rw [List.mem_cons, not_or] at absent
      simp [search, Ne.symm absent.1, induction absent.2]

theorem search_rest {rest : List α} (absent : eol ∉ rest) :
    search eol found true rest = found rest := by
  cases rest with
  | nil => rfl
  | cons item rest =>
      rw [List.mem_cons, not_or] at absent
      simp [search, Ne.symm absent.1, search_false_of_not_mem absent.2]

theorem search_line {line : List α} (absent : eol ∉ line) (items : List α) :
    search eol found true (line ++ eol :: items) =
      (found (line ++ eol :: items)).or (search eol found true items) := by
  cases line with
  | nil => simp [search]
  | cons item line =>
      rw [List.mem_cons, not_or] at absent
      simp [search, Ne.symm absent.1, search_false_append absent.2]

/-- What a search finds, it finds at the first line where it succeeds. -/
theorem search_text {lines : List (List α)} {rest : List α} {value : β}
    (clean : ∀ line ∈ lines, eol ∉ line) (last : eol ∉ rest) :
    search eol found true (text eol lines rest) = some value ↔
      (∃ before line after, lines = before ++ line :: after ∧
        (∀ first middle second, before = first ++ middle :: second →
          found (text eol (middle :: second ++ line :: after) rest) = none) ∧
        found (text eol (line :: after) rest) = some value) ∨
      ((∀ first line second, lines = first ++ line :: second →
          found (text eol (line :: second) rest) = none) ∧
        found rest = some value) := by
  induction lines with
  | nil => simp [search_rest last]
  | cons line lines induction =>
      obtain ⟨first, others⟩ := List.forall_mem_cons.mp clean
      rw [text_cons, search_line first, Option.or_eq_some_iff, induction others]
      constructor
      · rintro (here | ⟨nothing, ⟨before, later, after, split, missed, found⟩ | ⟨missed, found⟩⟩)
        · exact Or.inl ⟨[], line, lines, rfl, by simp, by simpa using here⟩
        · refine Or.inl ⟨line :: before, later, after, by rw [split]; rfl, ?_, found⟩
          intro start middle second same
          cases start with
          | nil =>
              cases same
              simpa [split] using nothing
          | cons head start =>
              cases same
              exact missed start middle second rfl
        · refine Or.inr ⟨?_, found⟩
          intro start middle second same
          cases start with
          | nil =>
              cases same
              simpa using nothing
          | cons head start =>
              cases same
              exact missed start middle second rfl
      · rintro (⟨before, later, after, split, missed, found⟩ | ⟨missed, found⟩)
        · cases before with
          | nil =>
              cases split
              exact Or.inl (by simpa using found)
          | cons head before =>
              cases split
              refine Or.inr ⟨by simpa using missed [] line before rfl,
                Or.inl ⟨before, later, after, rfl, ?_, found⟩⟩
              intro start middle second same
              exact missed (line :: start) middle second (by rw [same]; rfl)
        · refine Or.inr ⟨by simpa using missed [] line lines rfl, Or.inr ⟨?_, found⟩⟩
          intro start middle second same
          exact missed (line :: start) middle second (by rw [same]; rfl)

end Search

theorem search_eq_none_iff {β : Type} {found : List α → Option β} {lines : List (List α)}
    {rest : List α} (clean : ∀ line ∈ lines, eol ∉ line) (last : eol ∉ rest) :
    search eol found true (text eol lines rest) = none ↔
      (∀ first line second, lines = first ++ line :: second →
        found (text eol (line :: second) rest) = none) ∧ found rest = none := by
  induction lines with
  | nil => simp [search_rest last]
  | cons line lines induction =>
      obtain ⟨first, others⟩ := List.forall_mem_cons.mp clean
      rw [text_cons, search_line first, Option.or_eq_none_iff, induction others]
      constructor
      · rintro ⟨here, missed, outcome⟩
        refine ⟨?_, outcome⟩
        intro start middle second same
        cases start with
        | nil =>
            cases same
            simpa using here
        | cons head start =>
            cases same
            exact missed start middle second rfl
      · rintro ⟨missed, outcome⟩
        refine ⟨by simpa using missed [] line lines rfl, ?_, outcome⟩
        intro start middle second same
        exact missed (line :: start) middle second (by rw [same]; rfl)

section Replace

variable {entry new : List α}

theorem replace_skip (old new skipped items : List α) :
    replace old new skipped.length (skipped ++ items) = replace old new 0 items := by
  induction skipped with
  | nil => rfl
  | cons item skipped induction => simpa [replace] using induction

/-- Up to their line breaks, two texts without one start alike only when they are
the same. -/
theorem isPrefixOf_line_iff {line items : List α} (absent : eol ∉ line)
    (clean : eol ∉ entry) :
    (entry ++ [eol]).isPrefixOf (line ++ eol :: items) = true ↔ line = entry := by
  rw [List.isPrefixOf_iff_prefix]
  induction entry generalizing line with
  | nil =>
      cases line with
      | nil => simp
      | cons item line =>
          rw [List.mem_cons, not_or] at absent
          simp [absent.1]
  | cons head entry induction =>
      rw [List.mem_cons, not_or] at clean
      cases line with
      | nil => simp [Ne.symm clean.1]
      | cons item line =>
          rw [List.mem_cons, not_or] at absent
          have tails := induction absent.2 clean.2
          simp only [List.cons_append, List.cons_prefix_cons, tails, List.cons.injEq]
          constructor
          · rintro ⟨same, rest⟩
            exact ⟨same.symm, rest⟩
          · rintro ⟨same, rest⟩
            exact ⟨same.symm, rest⟩

theorem replace_line {line : List α} (items : List α) (absent : eol ∉ line)
    (clean : eol ∉ entry) :
    replace (entry ++ [eol]) new 0 (line ++ eol :: items) =
      replaceEnd eol entry new line ++ replace (entry ++ [eol]) new 0 items := by
  have here : ∀ line : List α, eol ∉ line →
      ((entry ++ [eol]).isPrefixOf (line ++ eol :: items) = true ↔ line = entry) :=
    fun line absent => isPrefixOf_line_iff absent clean
  induction line with
  | nil =>
      by_cases same : [] = entry
      · subst same
        simp [replace, replaceEnd]
      · have := mt (here [] absent).mp same
        simp only [List.nil_append] at this ⊢
        rw [replace, if_neg this, replaceEnd, if_neg same]
        rfl
  | cons item line induction =>
      by_cases same : item :: line = entry
      · have := (here (item :: line) absent).mpr same
        rw [List.cons_append] at this ⊢
        rw [replace, if_pos this, replaceEnd, if_pos same]
        subst same
        have passed := replace_skip (item :: line ++ [eol]) new (line ++ [eol]) items
        simpa using passed
      · have := mt (here (item :: line) absent).mp same
        rw [List.mem_cons, not_or] at absent
        rw [List.cons_append] at this ⊢
        rw [replace, if_neg this, replaceEnd, if_neg same, induction absent.2]
        rfl

theorem replace_rest {rest : List α} (absent : eol ∉ rest) :
    replace (entry ++ [eol]) new 0 rest = rest := by
  induction rest with
  | nil => rfl
  | cons item rest induction =>
      have differs : ¬ (entry ++ [eol]).isPrefixOf (item :: rest) = true := by
        rw [List.isPrefixOf_iff_prefix]
        intro starts
        exact absent (starts.subset (by simp))
      rw [List.mem_cons, not_or] at absent
      rw [replace, if_neg differs, induction absent.2]

theorem replace_of_absent {old items : List α} (absent : ¬ old <:+: items) :
    replace old new 0 items = items := by
  induction items with
  | nil => rfl
  | cons item items induction =>
      have differs : ¬ old.isPrefixOf (item :: items) = true := by
        rw [List.isPrefixOf_iff_prefix]
        exact fun starts => absent starts.isInfix
      have later : ¬ old <:+: items := fun occurs =>
        absent (occurs.trans (List.suffix_cons item items).isInfix)
      rw [replace, if_neg differs, induction later]

/-- No replaced part starts before its first item. -/
theorem replace_append_of_not_mem {first : α} {start : List α} (absent : first ∉ start)
    (old items : List α) :
    replace (first :: old) new 0 (start ++ items) =
      start ++ replace (first :: old) new 0 items := by
  induction start with
  | nil => rfl
  | cons item start induction =>
      rw [List.mem_cons, not_or] at absent
      have differs : ¬ (first :: old).isPrefixOf (item :: (start ++ items)) = true := by
        rw [List.isPrefixOf_iff_prefix, List.cons_prefix_cons]
        exact fun starts => absent.1 starts.1
      rw [List.cons_append, replace, if_neg differs, induction absent.2, List.cons_append]

theorem replace_of_first_not_mem {first : α} {items : List α} (absent : first ∉ items)
    (old : List α) : replace (first :: old) new 0 items = items := by
  have passed := @replace_append_of_not_mem _ _ new _ _ absent old []
  rw [List.append_nil] at passed
  rw [passed, replace, List.append_nil]

theorem replace_here (first : α) (old items : List α) :
    replace (first :: old) new 0 (first :: (old ++ items)) =
      new ++ replace (first :: old) new 0 items := by
  have starts : (first :: old).isPrefixOf (first :: (old ++ items)) = true := by
    rw [List.isPrefixOf_iff_prefix]
    exact List.prefix_append (first :: old) items
  rw [replace, if_pos starts]
  exact congrArg (new ++ ·) (replace_skip _ _ _ _)

/-- A text without the item that `replace` looks at, and with it. -/
theorem replace_cases (first : α) (old new items : List α) (item : α) :
    (∃ rest, item :: items = first :: old ++ rest ∧
      replace (first :: old) new 0 (item :: items) = new ++ replace (first :: old) new 0 rest) ∨
    (¬ first :: old <+: item :: items ∧
      replace (first :: old) new 0 (item :: items) = item :: replace (first :: old) new 0 items) := by
  by_cases starts : first :: old <+: item :: items
  · obtain ⟨rest, split⟩ := starts
    refine .inl ⟨rest, split.symm, ?_⟩
    rw [← split]
    exact replace_here first old rest
  · refine .inr ⟨starts, ?_⟩
    rw [replace, if_neg (by rwa [List.isPrefixOf_iff_prefix])]

/-- A replacement by some of the items only removes items. -/
theorem replace_sublist {first : α} (part : new.Sublist (first :: old)) (items : List α) :
    (replace (first :: old) new 0 items).Sublist items := by
  induction total : items.length using Nat.strongRecOn generalizing items with
  | ind size induction =>
      cases items with
      | nil => exact List.Sublist.refl []
      | cons item items =>
          rcases replace_cases first old new items item with ⟨rest, split, replaced⟩ | ⟨_, kept⟩
          · have shorter : rest.length < size := by
              rw [← total, split, List.length_append, List.length_cons]
              omega
            rw [replaced, split]
            exact part.append (induction _ shorter rest rfl)
          · rw [kept]
            exact (induction _ (by rw [← total]; simp) items rfl).cons_cons item

/-- A shorter text in the place of one that occurs. -/
theorem replace_length_lt {first : α} (part : new.Sublist (first :: old))
    (shorter : new.length < (first :: old).length) {items : List α}
    (occurs : first :: old <:+: items) :
    (replace (first :: old) new 0 items).length < items.length := by
  induction items with
  | nil => simp at occurs
  | cons item items induction =>
      rcases replace_cases first old new items item with ⟨rest, split, replaced⟩ | ⟨starts, kept⟩
      · have others := (replace_sublist part rest).length_le
        rw [replaced, split, List.length_append, List.length_append]
        omega
      · have later : first :: old <:+: items := by
          rcases List.infix_cons_iff.mp occurs with here | later
          · exact absurd here starts
          · exact later
        rw [kept, List.length_cons, List.length_cons]
        have := induction later
        omega

/-- Replacing a terminated entry changes the ends of the lines that end in it. -/
theorem replace_text {lines : List (List α)} {rest : List α}
    (clean : ∀ line ∈ lines, eol ∉ line) (last : eol ∉ rest) (absent : eol ∉ entry) :
    replace (entry ++ [eol]) new 0 (text eol lines rest) =
      lines.flatMap (replaceEnd eol entry new) ++ rest := by
  induction lines with
  | nil => simpa using replace_rest last
  | cons line lines induction =>
      obtain ⟨first, others⟩ := List.forall_mem_cons.mp clean
      rw [text_cons, replace_line _ first absent, induction others]
      simp

theorem replaceEnd_append (start : List α) :
    replaceEnd eol entry new (start ++ entry) = start ++ new := by
  induction start with
  | nil => cases entry <;> simp [replaceEnd]
  | cons item start induction =>
      have longer : item :: (start ++ entry) ≠ entry := by
        intro same
        have := congrArg List.length same
        simp at this
        omega
      rw [List.cons_append, replaceEnd, if_neg longer, induction]
      rfl

theorem replaceEnd_of_not_suffix {line : List α} (differs : ¬ entry <:+ line) :
    replaceEnd eol entry new line = line ++ [eol] := by
  induction line with
  | nil =>
      have : [] ≠ entry := by
        intro same
        exact differs (same ▸ List.suffix_rfl)
      simp [replaceEnd, this]
  | cons item line induction =>
      have other : item :: line ≠ entry := by
        intro same
        exact differs (same ▸ List.suffix_rfl)
      rw [replaceEnd, if_neg other, induction]
      · rfl
      · intro ends
        exact differs (ends.trans (List.suffix_cons item line))

/-- A line with a new end in the place of the entry that it ends in. -/
def editEnd (entry new line : List α) : List α :=
  if entry <:+ line then line.take (line.length - entry.length) ++ new else line

theorem editEnd_append (start : List α) : editEnd entry new (start ++ entry) = start ++ new := by
  simp [editEnd]

theorem editEnd_of_not_suffix {line : List α} (differs : ¬ entry <:+ line) :
    editEnd entry new line = line := if_neg differs

theorem replaceEnd_line (line : List α) :
    replaceEnd eol entry (new ++ [eol]) line = editEnd entry new line ++ [eol] := by
  by_cases ends : entry <:+ line
  · obtain ⟨start, rfl⟩ := ends
    rw [replaceEnd_append, editEnd_append, List.append_assoc]
  · rw [replaceEnd_of_not_suffix ends, editEnd_of_not_suffix ends]

theorem mem_editEnd {line : List α} {item : α} (member : item ∈ editEnd entry new line) :
    item ∈ line ∨ item ∈ new := by
  unfold editEnd at member
  split at member
  · rcases List.mem_append.mp member with old | recent
    · exact Or.inl (List.mem_of_mem_take old)
    · exact Or.inr recent
  · exact Or.inl member

/-- Replacing a line by a line edits the ends of lines. -/
theorem replace_line_text {lines : List (List α)} {rest : List α}
    (clean : ∀ line ∈ lines, eol ∉ line) (last : eol ∉ rest) (absent : eol ∉ entry) :
    replace (entry ++ [eol]) (new ++ [eol]) 0 (text eol lines rest) =
      text eol (lines.map (editEnd entry new)) rest := by
  have ends : replaceEnd eol entry (new ++ [eol]) =
      fun line => editEnd entry new line ++ [eol] := by
    funext line
    exact replaceEnd_line line
  rw [replace_text clean last absent, text, List.flatMap_map, ends]

/-- Removing a line that no other line ends in leaves the other lines. -/
theorem remove_line_text {lines : List (List α)} {rest : List α}
    (clean : ∀ line ∈ lines, eol ∉ line) (last : eol ∉ rest) (absent : eol ∉ entry)
    (whole : ∀ line ∈ lines, entry <:+ line → line = entry) :
    replace (entry ++ [eol]) [] 0 (text eol lines rest) =
      text eol (lines.filter (fun line => decide (line ≠ entry))) rest := by
  rw [replace_text clean last absent, text]
  congr 1
  clear clean
  induction lines with
  | nil => rfl
  | cons line lines induction =>
      obtain ⟨first, others⟩ := List.forall_mem_cons.mp whole
      rw [List.flatMap_cons, induction others]
      by_cases same : line = entry
      · have gone : replaceEnd eol entry [] entry = [] := replaceEnd_append []
        simp [same, gone]
      · have differs : ¬ entry <:+ line := fun ends => same (first ends)
        simp [same, replaceEnd_of_not_suffix differs]

end Replace

end Lines
