import JumpscaleX.Library.Lines

/-!
# Templates

A template is a text with placeholders, which are names between an opening and a
closing item.  Replacing the placeholders of one name after the other fills the
template, as long as no replacement makes a placeholder of a later name.
-/

namespace Templates

open Lines

variable {α : Type} [DecidableEq α]

/-- A piece of a template: a text as it stands, or the name of a placeholder. -/
inductive Piece (α : Type) where
  | text (items : List α)
  | field (name : List α)
  deriving DecidableEq

section Pieces

variable (opening closing : α)

/-- The placeholder of a name. -/
def placeholder (name : List α) : List α :=
  opening :: name ++ [closing]

/-- The pieces of a template.  Behind an opening item the items since then are kept. -/
def piecesFrom : Option (List α) → List α → List (Piece α)
  | none, [] => []
  | some inside, [] => [.text (opening :: inside)]
  | none, item :: items =>
      if item = opening then piecesFrom (some []) items
      else .text [item] :: piecesFrom none items
  | some inside, item :: items =>
      if item = opening then .text (opening :: inside) :: piecesFrom (some []) items
      else if item = closing then .field inside :: piecesFrom none items
      else piecesFrom (some (inside ++ [item])) items

def pieces (template : List α) : List (Piece α) :=
  piecesFrom opening closing none template

/-- A placeholder stands as it is when its name has no value. -/
def fill (value : List α → Option (List α)) : Piece α → List α
  | .text items => items
  | .field name => (value name).getD (placeholder opening closing name)

/-- All placeholders of a template filled at once. -/
def filled (value : List α → Option (List α)) (template : List α) : List α :=
  (pieces opening closing template).flatMap (fill opening closing value)

end Pieces

/-- The places at which a text stands in another one. -/
def occurrences (old : List α) : List α → Nat
  | [] => 0
  | item :: items => (if old.isPrefixOf (item :: items) then 1 else 0) + occurrences old items

/-- The places at the front of a text at which another one starts. -/
def starts (old : List α) : List α → List α → Nat
  | [], _ => 0
  | item :: items, rest =>
      (if old.isPrefixOf (item :: items ++ rest) then 1 else 0) + starts old items rest

theorem occurrences_append (old first rest : List α) :
    occurrences old (first ++ rest) = starts old first rest + occurrences old rest := by
  induction first with
  | nil => simp [starts]
  | cons item first induction =>
      rw [List.cons_append, occurrences, induction, starts, Nat.add_assoc, List.cons_append]

/-- A text in front of which nothing starts is passed. -/
theorem replace_of_starts {old new first rest : List α} (nothing : starts old first rest = 0) :
    replace old new 0 (first ++ rest) = first ++ replace old new 0 rest := by
  induction first with
  | nil => rfl
  | cons item first induction =>
      rw [starts] at nothing
      have absent : ¬ old.isPrefixOf (item :: (first ++ rest)) = true := by
        intro present
        rw [List.cons_append, if_pos present] at nothing
        omega
      rw [List.cons_append, replace, if_neg absent, induction (by omega)]
      rfl

theorem replace_self {old : List α} (some : old ≠ []) (new rest : List α) :
    replace old new 0 (old ++ rest) = new ++ replace old new 0 rest := by
  cases old with
  | nil => exact (some rfl).elim
  | cons item old =>
      have present : (item :: old).isPrefixOf (item :: (old ++ rest)) = true := by
        rw [List.isPrefixOf_iff_prefix]
        exact List.prefix_append (item :: old) rest
      rw [List.cons_append, replace, if_pos present, List.length_cons, Nat.add_sub_cancel,
        replace_skip]

section Filling

variable {opening closing : α} {name : List α}

omit [DecidableEq α] in
theorem placeholder_ne_nil : placeholder opening closing name ≠ [] := by
  simp [placeholder]

theorem starts_self {old : List α} (some : old ≠ []) (rest : List α) :
    0 < starts old old rest := by
  cases old with
  | nil => exact (some rfl).elim
  | cons item old =>
      have present : (item :: old).isPrefixOf (item :: old ++ rest) = true := by
        rw [List.isPrefixOf_iff_prefix]
        exact List.prefix_append (item :: old) rest
      rw [starts, if_pos present]
      omega

/-- Each placeholder of a name without a value is an occurrence. -/
theorem count_le_occurrences {value : List α → Option (List α)} (unfilled : value name = none)
    (parts : List (Piece α)) :
    parts.count (.field name) ≤
      occurrences (placeholder opening closing name)
        (parts.flatMap (fill opening closing value)) := by
  induction parts with
  | nil => exact Nat.zero_le _
  | cons piece parts induction =>
      rw [List.flatMap_cons, occurrences_append]
      by_cases same : piece = .field name
      · subst same
        have first : 0 < starts (placeholder opening closing name)
            (fill opening closing value (.field name))
            (parts.flatMap (fill opening closing value)) := by
          rw [fill, unfilled]
          exact starts_self placeholder_ne_nil _
        rw [List.count_cons_self]
        omega
      · rw [List.count_cons_of_ne same]
        omega

/-- The values with one more. -/
def extended (value : List α → Option (List α)) (name new : List α) (other : List α) :
    Option (List α) :=
  if other = name then some new else value other

/-- When its placeholders are the only occurrences of a name, replacing them fills
them. -/
theorem replace_flatMap {value : List α → Option (List α)} (unfilled : value name = none)
    {new : List α} {parts : List (Piece α)}
    (own : occurrences (placeholder opening closing name)
      (parts.flatMap (fill opening closing value)) = parts.count (.field name)) :
    replace (placeholder opening closing name) new 0
        (parts.flatMap (fill opening closing value)) =
      parts.flatMap (fill opening closing (extended value name new)) := by
  induction parts with
  | nil => rfl
  | cons piece parts induction =>
      have later : parts.count (.field name) ≤ occurrences (placeholder opening closing name)
          (parts.flatMap (fill opening closing value)) := count_le_occurrences unfilled parts
      rw [List.flatMap_cons, occurrences_append] at own
      rw [List.flatMap_cons, List.flatMap_cons]
      by_cases same : piece = .field name
      · subst same
        have first : 0 < starts (placeholder opening closing name)
            (fill opening closing value (.field name))
            (parts.flatMap (fill opening closing value)) := by
          rw [fill, unfilled]
          exact starts_self placeholder_ne_nil _
        rw [List.count_cons_self] at own
        have asIs : fill opening closing value (.field name) =
            placeholder opening closing name := by
          rw [fill, unfilled]
          rfl
        have inPlace : fill opening closing (extended value name new) (.field name) = new := by
          rw [fill, extended, if_pos rfl]
          rfl
        rw [asIs, replace_self placeholder_ne_nil, induction (by omega), inPlace]
      · rw [List.count_cons_of_ne same] at own
        have kept : fill opening closing (extended value name new) piece =
            fill opening closing value piece := by
          cases piece with
          | text items => rfl
          | field other =>
              have different : other ≠ name := fun equal => same (by rw [equal])
              rw [fill, fill, extended, if_neg different]
        rw [kept, replace_of_starts (by omega), induction (by omega)]

/-- Without values a template stands as it is. -/
theorem filled_none (template : List α) :
    filled opening closing (fun _ => none) template = template := by
  have walk : ∀ (items : List α) (inside : Option (List α)),
      (piecesFrom opening closing inside items).flatMap
          (fill opening closing (fun _ => none)) =
        (match inside with
          | none => []
          | some inside => opening :: inside) ++ items := by
    intro items
    induction items with
    | nil =>
        intro inside
        cases inside <;> simp [piecesFrom, fill]
    | cons item items induction =>
        intro inside
        cases inside with
        | none =>
            rw [piecesFrom]
            split
            · rename_i isOpening
              rw [induction, isOpening]
              rfl
            · rw [List.flatMap_cons, induction]
              rfl
        | some inside =>
            rw [piecesFrom]
            split
            · rename_i isOpening
              rw [List.flatMap_cons, induction, isOpening]
              simp [fill]
            · split
              · rename_i isClosing
                rw [List.flatMap_cons, induction, isClosing]
                simp [fill, placeholder]
              · rw [induction]
                simp
  exact walk template none

theorem filled_congr {value other : List α → Option (List α)} {template : List α}
    (same : ∀ name, .field name ∈ pieces opening closing template → value name = other name) :
    filled opening closing value template = filled opening closing other template := by
  rw [filled, filled, List.flatMap_def, List.flatMap_def]
  refine congrArg List.flatten (List.map_congr_left ?_)
  intro piece member
  cases piece with
  | text items => rfl
  | field name => rw [fill, fill, same name member]

/-! ## One name after the other -/

/-- The value of a name. -/
def valueIn (values : List (List α × List α)) (name : List α) : Option (List α) :=
  values.lookup name

/-- No value makes a placeholder of a name that comes later. -/
def SettledFrom (opening closing : α) (template : List α) (front : List (List α × List α)) :
    List (List α × List α) → Prop
  | [] => True
  | (name, new) :: back =>
      occurrences (placeholder opening closing name)
          (filled opening closing (valueIn front) template) =
        (pieces opening closing template).count (.field name) ∧
      SettledFrom opening closing template (front ++ [(name, new)]) back

def Settled (opening closing : α) (values : List (List α × List α)) (template : List α) : Prop :=
  SettledFrom opening closing template [] values

instance decidableSettledFrom (opening closing : α) (template : List α) :
    (front values : List (List α × List α)) →
      Decidable (SettledFrom opening closing template front values)
  | _, [] => inferInstanceAs (Decidable True)
  | front, (name, new) :: back =>
      have := decidableSettledFrom opening closing template (front ++ [(name, new)]) back
      inferInstanceAs (Decidable (_ ∧ _))

instance (opening closing : α) (values : List (List α × List α)) (template : List α) :
    Decidable (Settled opening closing values template) :=
  decidableSettledFrom opening closing template [] values

theorem lookup_concat {values : List (List α × List α)} {new : List α}
    (fresh : valueIn values name = none) :
    valueIn (values ++ [(name, new)]) = extended (valueIn values) name new := by
  funext other
  rw [valueIn, List.lookup_append, extended]
  by_cases same : other = name
  · rw [valueIn] at fresh
    rw [if_pos same, same, fresh]
    simp
  · have different : (other == name) = false := beq_eq_false_iff_ne.mpr same
    rw [if_neg same]
    simp [List.lookup_cons, different, valueIn]

/-- In a settled template the placeholders are filled by replacing them name by name. -/
theorem foldl_replace_from {template : List α} {front values : List (List α × List α)}
    (distinct : ((front ++ values).map Prod.fst).Nodup)
    (settled : SettledFrom opening closing template front values) :
    values.foldl
        (fun text entry => replace (placeholder opening closing entry.1) entry.2 0 text)
        (filled opening closing (valueIn front) template) =
      filled opening closing (valueIn (front ++ values)) template := by
  induction values generalizing front with
  | nil => rw [List.foldl_nil, List.append_nil]
  | cons entry values induction =>
      obtain ⟨name, new⟩ := entry
      have fresh : valueIn front name = none := by
        rw [List.map_append, List.nodup_append] at distinct
        rw [valueIn, List.lookup_eq_none_iff]
        intro entry member
        have different := distinct.2.2 entry.1 (List.mem_map_of_mem member) name (by simp)
        simpa using Ne.symm different
      have step : replace (placeholder opening closing name) new 0
          (filled opening closing (valueIn front) template) =
            filled opening closing (valueIn (front ++ [(name, new)])) template := by
        rw [filled, replace_flatMap fresh settled.1, lookup_concat fresh, filled]
      have later := induction (by simpa using distinct) settled.2
      rw [List.foldl_cons, step, later, List.append_assoc, List.singleton_append]

theorem foldl_replace {template : List α} {values : List (List α × List α)}
    (distinct : (values.map Prod.fst).Nodup)
    (settled : Settled opening closing values template) :
    values.foldl
        (fun text entry => replace (placeholder opening closing entry.1) entry.2 0 text)
        template =
      filled opening closing (valueIn values) template := by
  have all : values.foldl _ (filled opening closing (valueIn []) template) = _ :=
    foldl_replace_from distinct settled
  have asIs : filled opening closing (valueIn []) template = template := filled_none template
  rwa [asIs] at all

end Filling

end Templates
