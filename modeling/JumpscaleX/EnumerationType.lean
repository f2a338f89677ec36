import Mathlib.Data.List.Infix
import Mathlib.Data.List.Nodup
import JumpscaleX.Value

/-!
# The enumeration type

`Enumeration.py`: a value is stored as the position of its label.  What
`upper().strip()` makes of a text is given by `normal`.
-/

namespace JumpscaleX

namespace Enumerations

open Fallible

/-- The exceptions of an enumeration, with their texts. -/
inductive Problem where
  | input (message : String)
  | value (message : String)
  | indexError

/-- `str(e)`. -/
def Problem.text : Problem → String
  | .input message => message
  | .value message => message
  | .indexError => "list index out of range"

/-- `Enumeration`: its labels were cleaned when it was made. -/
structure Enumeration (normal : String → String) where
  values : List String
  cleaned : ∀ label ∈ values, normal label = label
  distinct : values.Nodup

/-- What can be given as a value.  An object of the enumeration is its data. -/
inductive EnumValue where
  | none
  | str (text : String)
  | int (value : Int)
  | obj (data : Int)
  | other

variable {normal : String → String} (type : Enumeration normal)

namespace Enumeration

/-- The text of the error for a value that is no label. -/
def cannotFind (text : String) : Problem :=
  .input ("cannot find '" ++ text ++ "' in enumeration")

/-- `_data_from_init_val`. -/
def dataFromInitVal : EnumValue → Except Problem Int
  | .str text =>
      if text = "" then .ok 0
      else if normal text ∈ type.values then .ok (type.values.idxOf (normal text))
      else .error (cannotFind text)
  | .int value =>
      if toString value ∈ type.values then .ok (type.values.idxOf (toString value))
      else if value < type.values.length then .ok value
      else .error (cannotFind (toString value))
  | _ => .error (.value "unsupported type for enum, is int or string")

/-- `clean`, and `toData`. -/
def clean : EnumValue → Except Problem Int
  | .none => type.dataFromInitVal (.int 0)
  | .obj data => .ok data
  | value => type.dataFromInitVal value

/-- `_string`: `self._typebase.values[self._data]`. -/
def string (data : Int) : Except Problem String :=
  let position := if data < 0 then type.values.length + data else data
  if 0 ≤ position then
    match type.values[position.toNat]? with
    | some label => .ok label
    | none => .error .indexError
  else .error .indexError

/-- The text that `__eq__` looks for in an exception. -/
def notFound : String := "could not find enum"

/-- `__eq__` of the object with the data. -/
def eq (data : Int) (other : EnumValue) : Except Problem Bool :=
  match other with
  | .none => .ok false
  | .str "" => .ok false
  | other =>
      match type.clean other with
      | .error problem =>
          if notFound.toList <:+: problem.text.toList then .ok false else .error problem
      | .ok data' => do
          let second ← type.string data'
          let first ← type.string data
          return decide (second = first)

/-! ## What a value stands for -/

/-- The label stands at the position. -/
def At (label : String) (data : Int) : Prop :=
  ∃ position : Nat, data = position ∧ type.values[position]? = some label

/-- A number stands for the label that is its text, and else for a position. -/
def IntNames (value data : Int) : Prop :=
  type.At (toString value) data ∨ toString value ∉ type.values ∧ data = value

/-- The positions that a value can stand for. -/
def Names : EnumValue → Int → Prop
  | .str text, data => text = "" ∧ data = 0 ∨ text ≠ "" ∧ type.At (normal text) data
  | .int value, data => type.IntNames value data
  | .none, data => type.IntNames 0 data
  | .obj data', data => data = data'
  | .other, _ => False

/-- The label at a position is found where it stands. -/
theorem idxOf_eq_iff {label : String} {position : Nat} (member : label ∈ type.values) :
    type.values.idxOf label = position ↔ type.values[position]? = some label := by
  constructor
  · rintro rfl
    have below := List.idxOf_lt_length_of_mem member
    rw [List.getElem?_eq_getElem below, List.getElem_idxOf below]
  · intro found
    obtain ⟨below, same⟩ := List.getElem?_eq_some_iff.mp found
    rw [← same]
    exact type.distinct.idxOf_getElem position below

theorem at_iff {label : String} {data : Int} (member : label ∈ type.values) :
    type.At label data ↔ data = type.values.idxOf label := by
  constructor
  · rintro ⟨position, rfl, found⟩
    rw [(type.idxOf_eq_iff member).mpr found]
  · rintro rfl
    exact ⟨_, rfl, (type.idxOf_eq_iff member).mp rfl⟩

theorem not_at {label : String} {data : Int} (absent : label ∉ type.values) :
    ¬ type.At label data := by
  rintro ⟨position, _, found⟩
  exact absent (List.mem_of_getElem? found)

variable {type}

theorem intNames_iff {value data other : Int}
    (accepted : type.dataFromInitVal (.int value) = .ok data) :
    type.IntNames value other ↔ other = data := by
  simp only [dataFromInitVal] at accepted
  by_cases member : toString value ∈ type.values
  · rw [if_pos member] at accepted
    cases accepted
    rw [IntNames, type.at_iff member, or_iff_left (fun both => both.1 member)]
  · rw [if_neg member] at accepted
    split at accepted
    · cases accepted
      rw [IntNames, or_iff_right (type.not_at member), and_iff_right member]
    · cases accepted

/-- An accepted value is stored as the position that it stands for. -/
theorem names_iff {value : EnumValue} {data other : Int}
    (accepted : type.clean value = .ok data) : type.Names value other ↔ other = data := by
  cases value with
  | none => exact intNames_iff accepted
  | int value => exact intNames_iff accepted
  | other => cases accepted
  | obj data' =>
      cases accepted
      rfl
  | str text =>
      simp only [clean, dataFromInitVal] at accepted
      by_cases empty : text = ""
      · rw [if_pos empty] at accepted
        cases accepted
        simp [Names, empty]
      · rw [if_neg empty] at accepted
        split at accepted
        · rename_i member
          cases accepted
          rw [Names, type.at_iff member]
          simp [empty]
        · cases accepted

/-! ## Reading the stored position -/

theorem string_of_position {position : Nat} {label : String}
    (found : type.values[position]? = some label) : type.string position = .ok label := by
  have natural : ¬ (position : Int) < 0 := by omega
  simp only [string, if_neg natural, if_pos (Int.natCast_nonneg position), Int.toNat_natCast,
    found]

/-- A position below the number of labels has one. -/
theorem exists_label {position : Nat} (below : position < type.values.length) :
    ∃ label, type.values[position]? = some label :=
  ⟨_, List.getElem?_eq_getElem below⟩

theorem clean_position {position : Nat} (below : position < type.values.length) :
    type.clean (.int position) = .ok (if toString (position : Int) ∈ type.values then
      (type.values.idxOf (toString (position : Int)) : Int) else position) := by
  simp only [clean, dataFromInitVal]
  split
  · rfl
  · rw [if_pos (by exact_mod_cast below)]

/-- The number of the position is the label of no other position. -/
def OwnNumber (type : Enumeration normal) (position : Nat) : Prop :=
  ∀ other, type.values[other]? = some (toString (position : Int)) → other = position

/-- The stored position is read back as its label when its number is not another
label. -/
theorem reread_iff {position : Nat} {label : String}
    (found : type.values[position]? = some label) :
    (∃ data, type.clean (.int position) = .ok data ∧ type.string data = .ok label) ↔
      type.OwnNumber position := by
  have below : position < type.values.length := (List.getElem?_eq_some_iff.mp found).1
  rw [clean_position below]
  by_cases member : toString (position : Int) ∈ type.values
  · simp only [if_pos member, Except.ok.injEq, exists_eq_left']
    have stands := (type.idxOf_eq_iff member).mp rfl
    rw [string_of_position stands, Except.ok.injEq]
    constructor
    · rintro same other isOther
      rw [← (type.idxOf_eq_iff member).mpr isOther]
      have isMember : label ∈ type.values := List.mem_of_getElem? found
      have first := (type.idxOf_eq_iff isMember).mpr found
      exact (congrArg (type.values.idxOf ·) same).trans first
    · intro own
      have same := own _ stands
      rw [same, found, Option.some.injEq] at stands
      exact stands.symm
  · simp only [if_neg member, Except.ok.injEq, exists_eq_left', string_of_position found,
      true_iff]
    intro other isOther
    exact (member (List.mem_of_getElem? isOther)).elim

/-! ## Comparing -/

theorem eq_obj {first second : Nat} {label label' : String}
    (found : type.values[first]? = some label) (found' : type.values[second]? = some label') :
    type.eq first (.obj second) = .ok (decide (label' = label)) := by
  simp [eq, clean, string_of_position found, string_of_position found', bind, Except.bind,
    pure, Except.pure]

/-- An object compares with the text of a label, unless this is empty. -/
theorem eq_label {first second : Nat} {label label' : String}
    (found : type.values[first]? = some label) (found' : type.values[second]? = some label') :
    type.eq first (.str label') = .ok (decide (label' = label)) ↔
      ¬ (label' = "" ∧ label = "") := by
  have member : label' ∈ type.values := List.mem_of_getElem? found'
  by_cases empty : label' = ""
  · subst empty
    simp [eq, eq_comm]
  · have cleaned : type.clean (.str label') = .ok (second : Int) := by
      simp only [clean, dataFromInitVal, if_neg empty, type.cleaned label' member,
        if_pos member, (type.idxOf_eq_iff member).mpr found']
    have compares : type.eq first (.str label') = .ok (decide (label' = label)) := by
      unfold eq
      split
      · contradiction
      · rename_i same
        cases same
        exact (empty rfl).elim
      · rw [cleaned]
        simp [string_of_position found, string_of_position found', bind, Except.bind, pure,
          Except.pure]
    simp [compares, empty]

/-- A text that is no label compares as different when it is empty or holds what is
looked for. -/
theorem eq_notLabel {data : Int} {text : String} (absent : normal text ∉ type.values) :
    type.eq data (.str text) = .ok false ↔
      text = "" ∨ notFound.toList <:+: (cannotFind text).text.toList := by
  by_cases empty : text = ""
  · subst empty
    simp [eq]
  · have rejected : type.clean (.str text) = .error (cannotFind text) := by
      simp only [clean, dataFromInitVal, if_neg empty, if_neg absent]
    unfold eq
    split
    · contradiction
    · rename_i same
      cases same
      exact (empty rfl).elim
    · rw [rejected]
      simp only
      split <;> simp_all

/-- A part without the separator lies before or behind it. -/
theorem infix_append_cons_iff {α : Type} {part first rest : List α} {separator : α}
    (absent : separator ∉ part) :
    part <:+: first ++ separator :: rest ↔ part <:+: first ∨ part <:+: rest := by
  induction first with
  | nil =>
      rw [List.nil_append, List.infix_cons_iff, List.prefix_cons_iff, List.infix_nil]
      constructor
      · rintro ((rfl | ⟨back, rfl, _⟩) | later)
        · exact .inl rfl
        · exact (absent List.mem_cons_self).elim
        · exact .inr later
      · rintro (rfl | later)
        · exact .inl (.inl rfl)
        · exact .inr later
  | cons item first induction =>
      rw [List.cons_append, List.infix_cons_iff, List.infix_cons_iff, induction, or_assoc]
      apply or_congr_left'
      intro notLater
      constructor
      · intro starts
        have separated : (item :: first) ++ [separator] <+:
            item :: (first ++ separator :: rest) := ⟨rest, by simp⟩
        rcases List.prefix_or_prefix_of_prefix starts separated with within | beyond
        · rcases List.prefix_concat_iff.mp within with same | within
          · exact (absent (by simp [same])).elim
          · exact within
        · exact (absent (beyond.subset (by simp))).elim
      · intro starts
        exact starts.trans (List.prefix_append (item :: first) (separator :: rest))

theorem notFound_infix_iff (text : String) :
    notFound.toList <:+: (cannotFind text).text.toList ↔
      notFound.toList <:+: text.toList := by
  have absent : '\'' ∉ notFound.toList := by decide
  have message : (cannotFind text).text.toList =
      "cannot find ".toList ++ '\'' :: (text.toList ++ '\'' :: " in enumeration".toList) := by
    simp [cannotFind, Problem.text]
  have before : ¬ notFound.toList <:+: "cannot find ".toList := by decide
  have behind : ¬ notFound.toList <:+: " in enumeration".toList := by decide
  rw [message, infix_append_cons_iff absent, infix_append_cons_iff absent]
  tauto

/-- A stored value is read back as its label, its data fits into a `UInt8`, labels
compare as equal when they are the same, and a text that is no label does not. -/
structure AsClaimed (type : Enumeration normal) (value : EnumValue) (text : String) :
    Prop where
  reread : ∀ data, type.clean value = .ok data → ∃ label, type.string data = .ok label ∧
    ∃ data', type.clean (.int data) = .ok data' ∧ type.string data' = .ok label
  inRange : ∀ data, type.clean value = .ok data →
    0 ≤ data ∧ data < type.values.length ∧ data ≤ 255
  labels : ∀ (first second : Nat) label label', type.values[first]? = some label →
    type.values[second]? = some label' →
      type.eq first (.obj second) = .ok (decide (label' = label)) ∧
      type.eq first (.str label') = .ok (decide (label' = label))
  notLabel : normal text ∉ type.values → ∀ position : Nat, position < type.values.length →
    type.eq position (.str text) = .ok false

/-- The codec does what it is for when the value stands for a position up to 255
that has a label and whose number is no other label, no label is empty, and the
text is a label, is empty or holds what `__eq__` looks for. -/
theorem enumeration_asClaimed_iff {value : EnumValue} {data : Int} {text : String}
    (accepted : type.clean value = .ok data) :
    type.AsClaimed value text ↔
      (∃ position : Nat, type.Names value position ∧ position < type.values.length ∧
        position ≤ 255 ∧ type.OwnNumber position) ∧
      "" ∉ type.values ∧
      (normal text ∈ type.values ∨ text = "" ∨ notFound.toList <:+: text.toList) := by
  constructor
  · intro claimed
    obtain ⟨natural, below, fits⟩ := claimed.inRange data accepted
    obtain ⟨position, rfl⟩ := Int.eq_ofNat_of_zero_le natural
    have below : position < type.values.length := by exact_mod_cast below
    obtain ⟨label, found⟩ := exists_label below
    refine ⟨⟨position, (names_iff accepted).mpr rfl, below, by exact_mod_cast fits, ?_⟩, ?_, ?_⟩
    · obtain ⟨label', isLabel, again⟩ := claimed.reread _ accepted
      rw [string_of_position found, Except.ok.injEq] at isLabel
      subst isLabel
      exact (reread_iff found).mp again
    · intro member
      obtain ⟨first, found'⟩ := List.getElem?_of_mem member
      exact (eq_label found' found').mp (claimed.labels first first _ _ found' found').2
        ⟨rfl, rfl⟩
    · by_cases member : normal text ∈ type.values
      · exact .inl member
      · right
        have differs := (eq_notLabel member).mp (claimed.notLabel member position below)
        rwa [notFound_infix_iff] at differs
  · rintro ⟨⟨position, names, below, fits, own⟩, noEmpty, compared⟩
    have same := (names_iff accepted).mp names
    subst same
    obtain ⟨label, found⟩ := exists_label below
    refine ⟨?_, ?_, ?_, ?_⟩
    · intro data isData
      rw [accepted, Except.ok.injEq] at isData
      subst isData
      exact ⟨label, string_of_position found, (reread_iff found).mpr own⟩
    · intro data isData
      rw [accepted, Except.ok.injEq] at isData
      subst isData
      omega
    · intro first second label label' found found'
      refine ⟨eq_obj found found', (eq_label found found').mpr ?_⟩
      rintro ⟨rfl, _⟩
      exact noEmpty (List.mem_of_getElem? found')
    · intro member position' _
      rw [eq_notLabel member, notFound_infix_iff]
      exact compared.resolve_left member

end Enumeration

/-- What `upper().strip()` makes of a text without blanks and with ASCII letters
only. -/
def upper (text : String) : String :=
  String.ofList (text.toList.map Char.toUpper)

/-- Two colours. -/
def colours : Enumeration upper where
  values := ["RED", "BLUE"]
  cleaned := by decide
  distinct := by decide

/-- Blue is stored as one. -/
theorem colours_blue :
    colours.AsClaimed (.str "blue") "red" ↔
      (∃ position : Nat, colours.Names (.str "blue") position ∧
        position < colours.values.length ∧ position ≤ 255 ∧ colours.OwnNumber position) ∧
      "" ∉ colours.values ∧
      (upper "red" ∈ colours.values ∨ "red" = "" ∨
        Enumeration.notFound.toList <:+: "red".toList) := by
  have accepted : colours.clean (.str "blue") = .ok 1 := rfl
  exact Enumeration.enumeration_asClaimed_iff accepted

/-- The comparison with a text that is no label raises. -/
theorem colours_green : ¬ colours.AsClaimed (.str "blue") "green" := by
  intro claimed
  have raises : colours.eq 0 (.str "green") = .error (Enumeration.cannotFind "green") := rfl
  have differs := claimed.notLabel (by decide) 0 (by decide)
  rw [show ((0 : Nat) : Int) = 0 from rfl, raises] at differs
  cases differs

end Enumerations

end JumpscaleX
