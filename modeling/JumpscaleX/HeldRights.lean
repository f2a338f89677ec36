import JumpscaleX.ACL

/-!
# What the rights of one record become

The loop over the given rights, taken several times as it happens for a user
that is given twice and for a circle that is reached twice.  A text that the
string type changes is stored in its changed form, and a right that is listed
twice is removed once for each time it is given.
-/

namespace JumpscaleX

namespace ACL

variable {action : Action} {rights : List String} {held : List PyVal}

/-- What a right does to the rights that are held. -/
def heldAfter (action : Action) (held : List PyVal) (right : String) : List PyVal :=
  match action with
  | .add => if .str right ∉ held then held ++ [StringType.cleanText right] else held
  | .delete => held.erase (.str right)

/-- What the loop over the rights does to the rights that are held. -/
def updateHeld (action : Action) (rights : List String) (held : List PyVal) : List PyVal :=
  rights.foldl (heldAfter action) held

/-- The rights that are held after a number of loops. -/
def passes (action : Action) (rights : List String) (times : Nat) (held : List PyVal) :
    List PyVal :=
  (updateHeld action rights)^[times] held

@[simp] theorem passes_zero : passes action rights 0 held = held := rfl

theorem passes_succ (times : Nat) :
    passes action rights (times + 1) held =
      passes action rights times (updateHeld action rights held) := rfl

theorem updateRight_eq (held : List PyVal) (changed : Bool) (right : String) :
    updateRight action (held, changed) right =
      (heldAfter action held right, changed || decide (heldAfter action held right ≠ held)) := by
  cases action with
  | add =>
      by_cases listed : PyVal.str right ∈ held
      · simp [updateRight, heldAfter, listed]
      · simp [updateRight, heldAfter, listed]
  | delete =>
      by_cases listed : PyVal.str right ∈ held
      · have shorter : held.erase (.str right) ≠ held := by
          intro same
          have length := List.length_erase_of_mem listed
          have positive := List.length_pos_of_mem listed
          rw [same] at length
          omega
        simp [updateRight, heldAfter, listed, shorter]
      · simp [updateRight, heldAfter, listed, List.erase_of_not_mem listed]

/-! ### The rights only grow, or only shrink -/

/-- What an action can lead to. -/
def Leads (action : Action) (before after : List PyVal) : Prop :=
  match action with
  | .add => before.Sublist after
  | .delete => after.Sublist before

theorem Leads.refl (held : List PyVal) : Leads action held held := by
  cases action <;> exact List.Sublist.refl held

theorem Leads.trans {first second third : List PyVal} (left : Leads action first second)
    (right : Leads action second third) : Leads action first third := by
  cases action with
  | add => exact List.Sublist.trans left right
  | delete => exact List.Sublist.trans right left

theorem Leads.antisymm {first second : List PyVal} (left : Leads action first second)
    (right : Leads action second first) : first = second := by
  cases action with
  | add => exact List.Sublist.antisymm left right
  | delete => exact List.Sublist.antisymm right left

theorem leads_heldAfter (held : List PyVal) (right : String) :
    Leads action held (heldAfter action held right) := by
  cases action with
  | add =>
      by_cases listed : PyVal.str right ∈ held
      · simp [Leads, heldAfter, listed]
      · simp [Leads, heldAfter, listed]
  | delete => exact List.erase_sublist

theorem leads_updateHeld (rights : List String) (held : List PyVal) :
    Leads action held (updateHeld action rights held) := by
  induction rights generalizing held with
  | nil => exact Leads.refl held
  | cons right rights induction =>
      exact (leads_heldAfter held right).trans (induction (heldAfter action held right))

theorem leads_passes (rights : List String) (times : Nat) (held : List PyVal) :
    Leads action held (passes action rights times held) := by
  induction times generalizing held with
  | zero => exact Leads.refl held
  | succ times induction =>
      rw [passes_succ]
      exact (leads_updateHeld rights held).trans (induction _)

theorem Leads.kept {before after : List PyVal} (leads : Leads .add before after) :
    before ⊆ after :=
  List.Sublist.subset leads

theorem Leads.remaining {before after : List PyVal} (leads : Leads .delete before after) :
    after ⊆ before :=
  List.Sublist.subset leads

/-- Two steps change something exactly when one of them does. -/
theorem ne_iff_of_leads {first second third : List PyVal} (left : Leads action first second)
    (right : Leads action second third) : third ≠ first ↔ second ≠ first ∨ third ≠ second := by
  constructor
  · intro changed
    by_cases same : second = first
    · exact .inr (same ▸ changed)
    · exact .inl same
  · rintro (changed | changed) same
    · exact changed (right.trans (same ▸ Leads.refl _) |>.antisymm left)
    · have back : Leads action third second := same ▸ left
      exact changed (back.antisymm right)

theorem foldl_updateRight (held : List PyVal) (changed : Bool) :
    rights.foldl (updateRight action) (held, changed) =
      (updateHeld action rights held,
        changed || decide (updateHeld action rights held ≠ held)) := by
  induction rights generalizing held changed with
  | nil => simp [updateHeld]
  | cons right rights induction =>
      have step : updateHeld action (right :: rights) held =
          updateHeld action rights (heldAfter action held right) := rfl
      have either := ne_iff_of_leads (leads_heldAfter held right)
        (leads_updateHeld rights (heldAfter action held right))
      rw [List.foldl_cons, updateRight_eq, induction, step]
      refine Prod.ext rfl ?_
      simp only [Bool.or_assoc]
      congr 1
      rw [← Bool.decide_or]
      exact decide_eq_decide.mpr either.symm

/-! ### Adding -/

theorem mem_updateHeld_add {value : PyVal}
    (member : value ∈ updateHeld .add rights held) :
    value ∈ held ∨ ∃ right ∈ rights, .str right ∉ held ∧
      value = StringType.cleanText right := by
  induction rights generalizing held with
  | nil => exact .inl member
  | cons right rights induction =>
      rcases induction member with
        before | ⟨later, listed, absent, same⟩
      · by_cases old : PyVal.str right ∈ held
        · exact .inl (by simpa [heldAfter, old] using before)
        · have either : value ∈ held ∨ value = StringType.cleanText right := by
            simpa [heldAfter, old] using before
          exact either.imp_right fun same => ⟨right, List.mem_cons_self, old, same⟩
      · refine .inr ⟨later, List.mem_cons_of_mem _ listed, ?_, same⟩
        intro held'
        exact absent (Leads.kept (leads_heldAfter held right) held')

theorem mem_passes_add {value : PyVal} {times : Nat}
    (member : value ∈ passes .add rights times held) :
    value ∈ held ∨ ∃ right ∈ rights, .str right ∉ held ∧
      value = StringType.cleanText right := by
  induction times generalizing held with
  | zero => exact .inl member
  | succ times induction =>
      rw [passes_succ] at member
      rcases induction member with before | ⟨right, listed, absent, same⟩
      · exact mem_updateHeld_add before
      · refine .inr ⟨right, listed, ?_, same⟩
        intro old
        exact absent (Leads.kept (leads_updateHeld rights held) old)

/-- The rights that are added are stored as they are given. -/
def AddsThem (rights : List String) (held : List PyVal) : Prop :=
  ∀ right ∈ rights, .str right ∈ held ∨ StringType.cleanText right = .str right

/-- A given right is held behind the loop, as it is or as the string type has
cleaned it. -/
theorem mem_updateHeld_of_given {right : String} (given : right ∈ rights) :
    .str right ∈ updateHeld .add rights held ∨
      StringType.cleanText right ∈ updateHeld .add rights held := by
  induction rights generalizing held with
  | nil => cases given
  | cons first rights induction =>
      rcases List.mem_cons.mp given with here | later
      · have added : PyVal.str first ∈ heldAfter .add held first ∨
            StringType.cleanText first ∈ heldAfter .add held first := by
          by_cases old : PyVal.str first ∈ held
          · exact .inl (by simp [heldAfter, old])
          · exact .inr (by simp [heldAfter, old])
        have grown := Leads.kept (leads_updateHeld rights (heldAfter .add held first))
        rw [here]
        exact added.imp (@grown _) (@grown _)
      · exact induction later

theorem str_mem_updateHeld_add (adds : AddsThem rights held) {right : String}
    (given : right ∈ rights) : .str right ∈ updateHeld .add rights held := by
  rcases adds right given with old | kept
  · exact Leads.kept (leads_updateHeld rights held) old
  · rcases mem_updateHeld_of_given given with as | cleaned
    · exact as
    · rwa [kept] at cleaned

/-- A second loop brings no value that the string type has made of nothing. -/
theorem none_not_mem_again (absent : PyVal.none ∉ updateHeld action rights held) :
    PyVal.none ∉ updateHeld action rights (updateHeld action rights held) := by
  intro member
  cases action with
  | add =>
      rcases mem_updateHeld_add member with old | ⟨right, given, new, same⟩
      · exact absent old
      · rcases mem_updateHeld_of_given given with old | cleaned
        · exact new old
        · exact absent (same ▸ cleaned)
  | delete => exact absent (Leads.remaining (leads_updateHeld _ _) member)

/-- Cleaning a text leaves it, or makes it shorter. -/
theorem strip_length_le (drop : Char → Bool) (chars : List Char) :
    (StringType.strip drop chars).length ≤ chars.length := by
  have first := (List.dropWhile_suffix drop (l := chars)).length_le
  have second := (List.dropWhile_suffix drop (l := (chars.dropWhile drop).reverse)).length_le
  rw [List.length_reverse] at second
  rw [StringType.strip, List.length_reverse]
  omega

theorem unquote_shorter (quote : Char) (chars : List Char) :
    StringType.unquote quote chars = chars ∨
      (StringType.unquote quote chars).length < chars.length := by
  rw [StringType.unquote]
  split
  · rename_i quoted
    right
    have outer := strip_length_le StringType.isSpace chars
    obtain ⟨_, opens, _⟩ := quoted
    cases value : StringType.strip StringType.isSpace chars with
    | nil =>
        rw [value] at opens
        cases opens
    | cons first rest =>
        rw [value, List.head?_cons, Option.some_inj] at opens
        rw [value, List.length_cons] at outer
        have inner : StringType.strip (· = quote) (first :: rest) =
            StringType.strip (· = quote) rest := by
          simp [StringType.strip, opens]
        have shorter := strip_length_le (· = quote) rest
        rw [inner]
        omega
  · exact .inl rfl

theorem cleanText_shorter {right text : String}
    (cleaned : StringType.cleanText right = .str text) :
    text = right ∨ text.length < right.length := by
  simp only [StringType.cleanText] at cleaned
  split at cleaned
  · cases cleaned
  · split at cleaned
    · injection cleaned with same
      rcases unquote_shorter '"' right.toList with kept | shorter
      · rw [kept, String.ofList_toList] at same
        exact .inl same.symm
      · right
        rw [← same, ← String.length_toList, String.toList_ofList, ← String.length_toList]
        exact shorter
    · rename_i unquoted
      injection cleaned with same
      have shorter := (unquote_shorter '\'' right.toList).resolve_left unquoted
      right
      rw [← same, ← String.length_toList, String.toList_ofList, ← String.length_toList]
      exact shorter

/-- When every given right is held at the end, they were stored as given. -/
theorem addsThem_of_held {times : Nat}
    (all : ∀ right ∈ rights, .str right ∈ passes .add rights times held) :
    AddsThem rights held := by
  -- A right that is not stored as given has been cleaned off a longer one.
  have noLongest : ∀ room : Nat, ∀ right ∈ rights,
      (rights.map String.length).sum ≤ right.length + room → .str right ∉ held →
        StringType.cleanText right = .str right := by
    intro room
    induction room with
    | zero =>
        intro right given long absent
        obtain ⟨longer, listed, other, cleaned⟩ :=
          (mem_passes_add (all right given)).resolve_left absent
        rcases cleanText_shorter cleaned.symm with same | shorter
        · rw [same] at cleaned ⊢
          exact cleaned.symm
        · have total : longer.length ≤ (rights.map String.length).sum :=
            List.le_sum_of_mem (List.mem_map.mpr ⟨longer, listed, rfl⟩)
          omega
    | succ room induction =>
        intro right given long absent
        obtain ⟨longer, listed, other, cleaned⟩ :=
          (mem_passes_add (all right given)).resolve_left absent
        rcases cleanText_shorter cleaned.symm with same | shorter
        · rw [same] at cleaned ⊢
          exact cleaned.symm
        · have kept := induction longer listed (by omega) other
          rw [kept] at cleaned
          injection cleaned with same
          rw [same] at shorter
          omega
  intro right given
  by_cases old : PyVal.str right ∈ held
  · exact .inl old
  · exact .inr (noLongest (rights.map String.length).sum right given (by omega) old)

/-! ### Deleting -/

theorem count_updateHeld_delete (right : String) :
    (updateHeld .delete rights held).count (.str right) =
      held.count (.str right) - rights.count right := by
  induction rights generalizing held with
  | nil => rfl
  | cons first rights induction =>
      have step : updateHeld .delete (first :: rights) held =
          updateHeld .delete rights (held.erase (.str first)) := rfl
      rw [step, induction, List.count_erase, List.count_cons]
      by_cases same : first = right
      · simp [same]
        omega
      · simp [same]

theorem count_passes_delete (times : Nat) (right : String) :
    (passes .delete rights times held).count (.str right) =
      held.count (.str right) - times * rights.count right := by
  induction times generalizing held with
  | zero => simp
  | succ times induction =>
      rw [passes_succ, induction, count_updateHeld_delete, Nat.sub_sub, Nat.succ_mul,
        Nat.add_comm]

/-- What no right stands for is neither added nor deleted. -/
theorem mem_passes_delete_of_other {times : Nat} {value : PyVal}
    (other : ∀ right ∈ rights, value ≠ .str right) :
    value ∈ passes .delete rights times held ↔ value ∈ held := by
  have once : ∀ {held : List PyVal} {rights : List String},
      (∀ right ∈ rights, value ≠ .str right) →
        (value ∈ updateHeld .delete rights held ↔ value ∈ held) := by
    intro held rights other
    induction rights generalizing held with
    | nil => exact Iff.rfl
    | cons right rights induction =>
        obtain ⟨here, later⟩ := List.forall_mem_cons.mp other
        exact (induction later).trans
          (List.mem_erase_of_ne here)
  induction times generalizing held with
  | zero => exact Iff.rfl
  | succ times induction =>
      rw [passes_succ]
      exact induction.trans (once other)

/-! ### The rights as sets -/

/-- The rights that the action is to lead to. -/
def Wanted (action : Action) (rights : List String) (held : List PyVal) (value : PyVal) : Prop :=
  match action with
  | .add => value ∈ held ∨ ∃ right ∈ rights, value = .str right
  | .delete => value ∈ held ∧ ∀ right ∈ rights, value ≠ .str right

/-- A number of loops leads to the rights that the action is to lead to. -/
def Fits (action : Action) (rights : List String) (times : Nat) (held : List PyVal) : Prop :=
  match action with
  | .add => AddsThem rights held
  | .delete => ∀ right ∈ rights, held.count (.str right) ≤ times * rights.count right

theorem Fits.more {times more : Nat} (fits : Fits action rights times held)
    (least : times ≤ more) : Fits action rights more held := by
  cases action with
  | add => exact fits
  | delete =>
      intro right given
      exact (fits right given).trans (Nat.mul_le_mul_right _ least)

theorem wanted_iff_of_fits {times : Nat} (some : 0 < times) (fits : Fits action rights times held)
    (value : PyVal) :
    value ∈ passes action rights times held ↔ Wanted action rights held value := by
  cases action with
  | add =>
      constructor
      · intro member
        refine (mem_passes_add member).imp_right ?_
        rintro ⟨right, given, absent, same⟩
        exact ⟨right, given, same.trans ((fits right given).resolve_left absent)⟩
      · rintro (old | ⟨right, given, same⟩)
        · exact Leads.kept (leads_passes rights times held) old
        · obtain ⟨times, rfl⟩ : ∃ fewer, times = fewer + 1 := ⟨times - 1, by omega⟩
          have first := str_mem_updateHeld_add fits given
          rw [passes_succ, same]
          exact Leads.kept (leads_passes rights times _) first
  | delete =>
      by_cases given : ∃ right ∈ rights, value = .str right
      · obtain ⟨right, listed, same⟩ := given
        have none : (passes .delete rights times held).count (.str right) = 0 := by
          rw [count_passes_delete]
          exact Nat.sub_eq_zero_of_le (fits right listed)
        rw [same]
        constructor
        · intro member
          exact absurd member (List.count_eq_zero.mp none)
        · rintro ⟨_, other⟩
          exact absurd rfl (other right listed)
      · have other : ∀ right ∈ rights, value ≠ .str right := fun right listed same =>
          given ⟨right, listed, same⟩
        rw [mem_passes_delete_of_other other]
        exact ⟨fun old => ⟨old, other⟩, And.left⟩

theorem fits_of_wanted {times : Nat}
    (wanted : ∀ value, value ∈ passes action rights times held ↔ Wanted action rights held value) :
    Fits action rights times held := by
  cases action with
  | add =>
      apply addsThem_of_held
      intro right given
      exact (wanted (.str right)).mpr (.inr ⟨right, given, rfl⟩)
  | delete =>
      intro right given
      have absent : PyVal.str right ∉ passes .delete rights times held := by
        intro member
        exact ((wanted _).mp member).2 right given rfl
      have none := List.count_eq_zero.mpr absent
      rw [count_passes_delete] at none
      exact Nat.sub_eq_zero_iff_le.mp none

/-- The action has something to do for a right. -/
def Moves (action : Action) (held : List PyVal) (right : String) : Prop :=
  match action with
  | .add => .str right ∉ held
  | .delete => .str right ∈ held

/-- A list that changes loses or gains one of the given rights. -/
theorem exists_moves_of_updateHeld_ne (changed : updateHeld action rights held ≠ held) :
    ∃ right ∈ rights, Moves action held right := by
  by_contra none
  apply changed
  clear changed
  induction rights with
  | nil => rfl
  | cons right rights induction =>
      have first : heldAfter action held right = held := by
        cases action with
        | add =>
            have old : PyVal.str right ∈ held := by
              by_contra absent
              exact none ⟨right, List.mem_cons_self, absent⟩
            simp [heldAfter, old]
        | delete =>
            have absent : PyVal.str right ∉ held := fun old =>
              none ⟨right, List.mem_cons_self, old⟩
            exact List.erase_of_not_mem absent
      have step : updateHeld action (right :: rights) held =
          updateHeld action rights (heldAfter action held right) := rfl
      rw [step, first]
      apply induction
      rintro ⟨other, listed, holds⟩
      exact none ⟨other, List.mem_cons_of_mem _ listed, holds⟩

/-- Where the loops fit, the list changes exactly when the set of rights does. -/
theorem passes_ne_iff {times : Nat} (some : 0 < times) (fits : Fits action rights times held) :
    passes action rights times held ≠ held ↔
      ∃ value, ¬ (value ∈ passes action rights times held ↔ value ∈ held) := by
  constructor
  · intro changed
    obtain ⟨fewer, rfl⟩ : ∃ fewer, times = fewer + 1 := ⟨times - 1, by omega⟩
    have first : updateHeld action rights held ≠ held := by
      intro same
      apply changed
      exact Function.iterate_fixed same (fewer + 1)
    obtain ⟨right, given, holds⟩ := exists_moves_of_updateHeld_ne first
    refine ⟨.str right, ?_⟩
    rw [wanted_iff_of_fits some fits]
    cases action with
    | add =>
        intro same
        exact holds (same.mp (.inr ⟨right, given, rfl⟩))
    | delete =>
        intro same
        exact (same.mpr holds).2 right given rfl
  · rintro ⟨value, different⟩ same
    exact different (by rw [same])

end ACL

end JumpscaleX
