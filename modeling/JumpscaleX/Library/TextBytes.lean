import Mathlib.Data.List.Basic

/-!
# Texts as bytes

The utf-8 bytes of a text, and the decimal digits of a number as bytes.  A
character below 128 is one byte, and its byte stands nowhere else.
-/

namespace TextBytes

abbrev Bytes := List UInt8

/-- The utf-8 bytes of a list of characters. -/
def ofChars (chars : List Char) : Bytes :=
  chars.flatMap String.utf8EncodeChar

/-- The utf-8 bytes of a text. -/
def utf8 (text : String) : Bytes :=
  ofChars text.toList

/-- The text that bytes spell in utf-8. -/
def utf8Decode (bytes : Bytes) : Option String :=
  String.fromUTF8? bytes.toByteArray

/-- Every character is one byte. -/
def Ascii (text : String) : Prop :=
  ∀ char ∈ text.toList, char.toNat < 128

instance (text : String) : Decidable (Ascii text) :=
  inferInstanceAs (Decidable (∀ char ∈ text.toList, char.toNat < 128))

@[simp] theorem ofChars_nil : ofChars [] = [] := rfl

@[simp] theorem ofChars_cons (char : Char) (chars : List Char) :
    ofChars (char :: chars) = String.utf8EncodeChar char ++ ofChars chars := rfl

@[simp] theorem ofChars_append (first second : List Char) :
    ofChars (first ++ second) = ofChars first ++ ofChars second := by
  simp [ofChars]

@[simp] theorem utf8_append (first second : String) :
    utf8 (first ++ second) = utf8 first ++ utf8 second := by
  rw [utf8, String.toList_append, ofChars_append, utf8, utf8]

@[simp] theorem utf8Decode_utf8 (text : String) : utf8Decode (utf8 text) = some text := by
  have whole : (utf8 text).toByteArray = text.toByteArray := String.utf8Encode_toList
  rw [utf8Decode, String.fromUTF8?, whole, dif_pos text.isValidUTF8]
  rfl

theorem utf8EncodeChar_of_small {char : Char} (small : char.toNat < 128) :
    String.utf8EncodeChar char = [UInt8.ofNat char.toNat] := by
  have low : char.val.toNat ≤ 127 := Nat.lt_succ_iff.mp small
  exact if_pos low

/-- The bytes of a character from 128 on are from 128 on. -/
theorem high_of_mem_utf8EncodeChar {char : Char} {byte : UInt8} (large : 128 ≤ char.toNat)
    (member : byte ∈ String.utf8EncodeChar char) : 128 ≤ byte.toNat := by
  have high : ¬ char.val.toNat ≤ 127 := by
    intro low
    exact absurd (Nat.le_trans large low) (by decide)
  have mark (value : Nat) (least : 128 ≤ value) (most : value < 256) :
      128 ≤ (UInt8.ofNat value).toNat := by
    rw [UInt8.toNat_ofNat', Nat.mod_eq_of_lt most]
    exact least
  simp only [String.utf8EncodeChar, if_neg high] at member
  split at member
  · simp only [List.mem_cons, List.not_mem_nil, or_false] at member
    rcases member with same | same <;> subst same <;> apply mark <;> omega
  · split at member
    · simp only [List.mem_cons, List.not_mem_nil, or_false] at member
      rcases member with same | same | same <;> subst same <;> apply mark <;> omega
    · simp only [List.mem_cons, List.not_mem_nil, or_false] at member
      rcases member with same | same | same | same <;> subst same <;> apply mark <;> omega

theorem length_utf8EncodeChar_of_large {char : Char} (large : 128 ≤ char.toNat) :
    1 < (String.utf8EncodeChar char).length := by
  have high : ¬ char.val.toNat ≤ 127 := by
    intro low
    exact absurd (Nat.le_trans large low) (by decide)
  simp only [String.utf8EncodeChar, if_neg high]
  split
  · simp
  · split <;> simp

/-- A byte below 128 is in a text exactly when its character is. -/
theorem mem_ofChars_iff {chars : List Char} (char : Char) (small : char.toNat < 128) :
    UInt8.ofNat char.toNat ∈ ofChars chars ↔ char ∈ chars := by
  have value : (UInt8.ofNat char.toNat).toNat = char.toNat := by
    rw [UInt8.toNat_ofNat']
    exact Nat.mod_eq_of_lt (by omega)
  rw [ofChars, List.mem_flatMap]
  constructor
  · rintro ⟨other, member, inside⟩
    by_cases otherSmall : other.toNat < 128
    · rw [utf8EncodeChar_of_small otherSmall, List.mem_singleton] at inside
      have same := congrArg UInt8.toNat inside
      rw [value, UInt8.toNat_ofNat', Nat.mod_eq_of_lt (by omega)] at same
      rw [Char.ext (UInt32.toNat_inj.mp same)]
      exact member
    · have high := high_of_mem_utf8EncodeChar (Nat.le_of_not_lt otherSmall) inside
      omega
  · intro member
    refine ⟨char, member, ?_⟩
    rw [utf8EncodeChar_of_small small]
    exact List.mem_singleton_self _

/-- A text has at least a byte for every character. -/
theorem length_le_ofChars (chars : List Char) : chars.length ≤ (ofChars chars).length := by
  induction chars with
  | nil => exact Nat.le_refl 0
  | cons char chars induction =>
      have some : String.utf8EncodeChar char ≠ [] := String.utf8EncodeChar_ne_nil
      have positive := List.length_pos_iff.mpr some
      rw [ofChars_cons, List.length_append, List.length_cons]
      omega

/-- As many bytes as characters: every character is one byte. -/
theorem length_ofChars_eq_iff {chars : List Char} :
    (ofChars chars).length = chars.length ↔ ∀ char ∈ chars, char.toNat < 128 := by
  induction chars with
  | nil => simp
  | cons char chars induction =>
      rw [ofChars_cons, List.length_append, List.length_cons, List.forall_mem_cons, ← induction]
      have rest := length_le_ofChars chars
      by_cases small : char.toNat < 128
      · rw [utf8EncodeChar_of_small small, List.length_singleton]
        constructor
        · intro same
          exact ⟨small, by omega⟩
        · rintro ⟨_, same⟩
          omega
      · have long := length_utf8EncodeChar_of_large (Nat.le_of_not_lt small)
        constructor
        · intro same
          omega
        · rintro ⟨impossible, _⟩
          exact absurd impossible small

theorem length_utf8_eq_iff {text : String} :
    (utf8 text).length = text.length ↔ Ascii text := by
  rw [← String.length_toList]
  exact length_ofChars_eq_iff

theorem length_le_utf8 (text : String) : text.length ≤ (utf8 text).length := by
  rw [← String.length_toList]
  exact length_le_ofChars _

/-! ### Decimal digits -/

/-- The decimal digits of a number. -/
def spellNat (number : Nat) : Bytes :=
  (Nat.toDigits 10 number).map (fun digit => UInt8.ofNat digit.toNat)

def isDigit (byte : UInt8) : Bool :=
  decide (48 ≤ byte.toNat ∧ byte.toNat ≤ 57)

/-- The number that digits spell. -/
def readNat (digits : Bytes) : Option Nat :=
  if digits ≠ [] ∧ digits.all isDigit then
    some (digits.foldl (fun number digit => 10 * number + (digit.toNat - 48)) 0)
  else none

theorem digit_small {digit : Char} {number : Nat} (member : digit ∈ Nat.toDigits 10 number) :
    48 ≤ digit.toNat ∧ digit.toNat ≤ 57 := by
  have isDigit := Nat.isDigit_of_mem_toDigits (by decide) (by decide) member
  simpa [Char.isDigit, UInt32.le_iff_toNat_le] using isDigit

theorem digitByte_toNat {digit : Char} {number : Nat}
    (member : digit ∈ Nat.toDigits 10 number) :
    (UInt8.ofNat digit.toNat).toNat = digit.toNat := by
  have small := digit_small member
  rw [UInt8.toNat_ofNat']
  exact Nat.mod_eq_of_lt (by omega)

/-- The text of a number is its digits. -/
theorem utf8_repr (number : Nat) : utf8 (toString number) = spellNat number := by
  have single (digits : List Char) (small : ∀ digit ∈ digits, digit.toNat < 128) :
      ofChars digits = digits.map (fun digit => UInt8.ofNat digit.toNat) := by
    induction digits with
    | nil => rfl
    | cons digit digits induction =>
        obtain ⟨first, rest⟩ := List.forall_mem_cons.mp small
        rw [ofChars_cons, utf8EncodeChar_of_small first, induction rest]
        rfl
  rw [utf8, Nat.toString_eq_ofList_toDigits, String.toList_ofList]
  apply single
  intro digit member
  have small := digit_small member
  omega

theorem isDigit_of_mem_spellNat {number : Nat} {byte : UInt8}
    (member : byte ∈ spellNat number) : isDigit byte = true := by
  obtain ⟨digit, inside, same⟩ := List.mem_map.mp member
  have small := digit_small inside
  rw [← same, isDigit, digitByte_toNat inside]
  simpa using small

theorem readNat_spellNat (number : Nat) : readNat (spellNat number) = some number := by
  have some : spellNat number ≠ [] := by
    rw [spellNat, Ne, List.map_eq_nil_iff]
    exact Nat.toDigits_ne_nil
  have digits : (spellNat number).all isDigit = true :=
    List.all_eq_true.mpr fun _ => isDigit_of_mem_spellNat
  have folded (chars : List Char) (start : Nat)
      (small : ∀ digit ∈ chars, (UInt8.ofNat digit.toNat).toNat = digit.toNat) :
      (chars.map (fun digit => UInt8.ofNat digit.toNat)).foldl
          (fun number digit => 10 * number + (digit.toNat - 48)) start =
        Nat.ofDigitChars 10 chars start := by
    induction chars generalizing start with
    | nil => rfl
    | cons digit chars induction =>
        obtain ⟨first, rest⟩ := List.forall_mem_cons.mp small
        rw [List.map_cons, List.foldl_cons, induction _ rest, first, Nat.ofDigitChars_cons]
        rfl
  rw [readNat, if_pos ⟨some, digits⟩, spellNat,
    folded _ _ fun _ => digitByte_toNat, Nat.ofDigitChars_ten_toDigits]

/-! Numbers with the same text are the same. -/

theorem toString_nat_injective {left right : Nat} (same : toString left = toString right) :
    left = right := by
  have spelled := congrArg (fun text => readNat (utf8 text)) same
  simpa only [utf8_repr, readNat_spellNat, Option.some_inj] using spelled

/-- No number without a sign is spelled as one with a sign. -/
theorem toString_nat_ne_neg (left : Nat) (text : String) : toString left ≠ "-" ++ text := by
  intro same
  have member : '-' ∈ Nat.toDigits 10 left := by
    have chars := congrArg String.toList same
    rw [Nat.toString_eq_ofList_toDigits, String.toList_ofList, String.toList_append] at chars
    rw [chars]
    exact List.mem_append_left _ List.mem_cons_self
  have small := digit_small member
  simp at small

theorem toString_int_injective {left right : Int} (same : toString left = toString right) :
    left = right := by
  cases left with
  | ofNat left =>
      cases right with
      | ofNat right => exact congrArg Int.ofNat (toString_nat_injective same)
      | negSucc right => exact absurd same (toString_nat_ne_neg left _)
  | negSucc left =>
      cases right with
      | ofNat right => exact absurd same.symm (toString_nat_ne_neg right _)
      | negSucc right =>
          have signed : "-" ++ toString (left + 1) = "-" ++ toString (right + 1) := same
          have chars := congrArg String.toList signed
          rw [String.toList_append, String.toList_append] at chars
          have numbers := String.toList_inj.mp (List.append_cancel_left chars)
          exact congrArg Int.negSucc (Nat.succ_inj.mp (toString_nat_injective numbers))
end TextBytes
