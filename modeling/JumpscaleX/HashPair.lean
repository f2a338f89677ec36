import JumpscaleX.Library.Words
import JumpscaleX.VFSKeys

/-!
# The hash pair type

`Set` of `CollectionTypes.py`: two numbers of four bytes each.  `struct` packs
them in the byte order of the machine, the least significant byte first.
-/

namespace JumpscaleX

namespace HashPair

open Fallible Words

/-- A part of the result of `clean`: an int, or what `struct.unpack` returned,
which is a tuple. -/
inductive Part where
  | int (value : Int)
  | unpacked (value : Nat)
  deriving DecidableEq

/-- `struct.pack("I", value)`. -/
def packWord : Part → Except Exn (List Nat)
  | .int value =>
      if 0 ≤ value ∧ value < 256 ^ 4 then .ok (bytes 4 value.toNat)
      else .error (.base "argument out of range")
  | .unpacked _ => .error (.base "required argument is not an integer")

/-- `struct.pack("L", value)`. -/
def packLong (value : Int) : Except Exn (List Nat) :=
  if 0 ≤ value ∧ value < 256 ^ 8 then .ok (bytes 8 value.toNat)
  else .error (.base "argument out of range")

/-- `r = struct.unpack("II", value)` and `r[1], r[0]`. -/
def unpackSwapped (data : List Nat) : Part × Part :=
  (.int (value (data.drop 4)), .int (value (data.take 4)))

/-- `bytesToInt`. -/
def bytesToInt : PyVal → Except Exn Part
  | .bytes data =>
      if data.length ≠ 4 then .error (.valueError "hash parts can only be 4 bytes")
      else .ok (.unpacked (value data))
  | .int value => .ok (.int value)
  | .bool value => .ok (.int (if value then 1 else 0))
  | .float value => .ok (.int (value.num.tdiv value.den))
  | .str text => (PyText.int text).map .int
  | _ => .error (.typeError "int() argument must be a string or a number")

/-- `clean`. -/
def clean (default : Part × Part) : PyVal → Except Exn (Part × Part)
  | .none => .ok default
  | .bytes data =>
      if data = [] then .ok default
      else if data.length ≠ 8 then .error (.valueError "bytes should be len 8")
      else .ok (unpackSwapped data)
  | .bool value => (packLong (if value then 1 else 0)).map unpackSwapped
  | .int value => (packLong value).map unpackSwapped
  | .list items =>
      match items with
      | [first, second] => do
          let v0 ← bytesToInt first
          let v1 ← bytesToInt second
          return (v0, v1)
      | _ => .error (.valueError "hash can only be list/set of 2")
  | .str text =>
      if ':' ∉ text.toList then .error (.valueError "when string, needs to have : inside")
      else
        match PyText.split ':' text with
        | [first, second] => do
            let v0 ← PyText.int first
            let v1 ← PyText.int second
            return (.int v0, .int v1)
        | _ => .error (.valueError "too many values to unpack")
  | _ => .error (.valueError "unrecognized format for hash")

/-- `toBytes`. -/
def toBytes (default : Part × Part) (value : PyVal) : Except Exn (List Nat) := do
  let o ← clean default value
  let low ← packWord o.2
  let high ← packWord o.1
  return low ++ high

/-- `toData`. -/
def toData (default : Part × Part) (value : PyVal) : Except Exn Int := do
  let o ← toBytes default value
  return (Words.value o : Nat)

def Part.text : Part → String
  | .int value => toString value
  | .unpacked value => "(" ++ toString value ++ ",)"

/-- `toString`. -/
def toText (default : Part × Part) (value : PyVal) : Except Exn String := do
  let o ← clean default value
  return o.1.text ++ ":" ++ o.2.text

/-- Two numbers of four bytes. -/
structure Pair where
  v0 : Nat
  v1 : Nat
  small0 : v0 < 256 ^ 4
  small1 : v1 < 256 ^ 4

namespace Pair

variable (pair : Pair)

def parts : Part × Part :=
  (.int pair.v0, .int pair.v1)

/-- The pair as a list of ints. -/
def ints : PyVal :=
  .list [.int pair.v0, .int pair.v1]

/-- A number of a pair as an int or as four bytes. -/
def PartOf (number : Nat) (value : PyVal) : Prop :=
  value = .int number ∨ value = .bytes (bytes 4 number)

/-- The accepted representations of a pair. -/
inductive Represents (default : Part × Part) : PyVal → Prop where
  | parts {first second : PyVal} :
      PartOf pair.v0 first → PartOf pair.v1 second → Represents default (.list [first, second])
  | bytes {data : List Nat} :
      toBytes default pair.ints = .ok data → Represents default (.bytes data)
  | number {data : Int} :
      toData default pair.ints = .ok data → Represents default (.int data)
  | text {text : String} :
      toText default pair.ints = .ok text → Represents default (.str text)

/-- The value is a list with four bytes for a number. -/
def HoldsBytes : PyVal → Prop
  | .list items => ∃ data, .bytes data ∈ items
  | _ => False

/-- A representation cleans to the pair, no other pair has the data of this one,
and the data fits into a signed number of 64 bits. -/
structure AsClaimed (default : Part × Part) (value : PyVal) : Prop where
  cleaned : clean default value = .ok pair.parts
  distinct : ∀ other : Pair, other ≠ pair →
    toData default other.ints ≠ toData default pair.ints
  fits : ∃ data, toData default pair.ints = .ok data ∧ -2 ^ 63 ≤ data ∧ data < 2 ^ 63

variable {pair}

theorem packWord_of_small {number : Nat} (small : number < 256 ^ 4) :
    packWord (.int number) = .ok (bytes 4 number) := by
  rw [packWord, if_pos ⟨Int.natCast_nonneg number, by exact_mod_cast small⟩, Int.toNat_natCast]

theorem clean_ints (default : Part × Part) : clean default pair.ints = .ok pair.parts := rfl

theorem toBytes_ints (default : Part × Part) :
    toBytes default pair.ints = .ok (bytes 4 pair.v1 ++ bytes 4 pair.v0) := by
  have low : packWord pair.parts.2 = .ok (bytes 4 pair.v1) := packWord_of_small pair.small1
  have high : packWord pair.parts.1 = .ok (bytes 4 pair.v0) := packWord_of_small pair.small0
  refine bind_eq_ok_iff.mpr ⟨pair.parts, clean_ints default, ?_⟩
  exact bind_eq_ok_iff.mpr ⟨_, low, bind_eq_ok_iff.mpr ⟨_, high, rfl⟩⟩

/-- The data of a pair has the first number in its high half. -/
theorem toData_ints (default : Part × Part) :
    toData default pair.ints = .ok ((pair.v1 + 256 ^ 4 * pair.v0 : Nat) : Int) := by
  refine bind_eq_ok_iff.mpr ⟨_, toBytes_ints default, ?_⟩
  rw [value_append_bytes 4 pair.v0 pair.small1 pair.small0]
  rfl

theorem unpackSwapped_bytes :
    unpackSwapped (bytes 4 pair.v1 ++ bytes 4 pair.v0) = pair.parts := by
  rw [unpackSwapped, List.drop_left' (length_bytes 4 pair.v1),
    List.take_left' (length_bytes 4 pair.v1), value_bytes pair.small0, value_bytes pair.small1]
  rfl

theorem clean_bytes (default : Part × Part) :
    clean default (.bytes (bytes 4 pair.v1 ++ bytes 4 pair.v0)) = .ok pair.parts := by
  have length : (bytes 4 pair.v1 ++ bytes 4 pair.v0).length = 8 := by simp
  have some : bytes 4 pair.v1 ++ bytes 4 pair.v0 ≠ [] := by
    intro empty
    rw [empty] at length
    cases length
  rw [clean, if_neg some, if_neg (by simp [length]), unpackSwapped_bytes]

theorem clean_number (default : Part × Part) :
    clean default (.int ((pair.v1 + 256 ^ 4 * pair.v0 : Nat) : Int)) = .ok pair.parts := by
  have small0 := pair.small0
  have small1 := pair.small1
  have small : pair.v1 + 256 ^ 4 * pair.v0 < 256 ^ 8 := by omega
  have low : bytes 4 (pair.v1 + 256 ^ 4 * pair.v0) = bytes 4 pair.v1 := by
    simp only [bytes]
    congr 1
    · omega
    · congr 1
      · omega
      · congr 1
        · omega
        · congr 1
          omega
  have high : (pair.v1 + 256 ^ 4 * pair.v0) / 256 ^ 4 = pair.v0 := by omega
  have packed : packLong ((pair.v1 + 256 ^ 4 * pair.v0 : Nat) : Int) =
      .ok (bytes 4 pair.v1 ++ bytes 4 pair.v0) := by
    rw [packLong, if_pos ⟨Int.natCast_nonneg _, by exact_mod_cast small⟩, Int.toNat_natCast,
      bytes_append 4 4, low, high]
  rw [clean, packed]
  exact congrArg Except.ok unpackSwapped_bytes

theorem clean_text (default : Part × Part) :
    clean default (.str (toString (pair.v0 : Int) ++ ":" ++ toString (pair.v1 : Int))) =
      .ok pair.parts := by
  have digitsOnly : ∀ number : Nat, ':' ∉ (toString (number : Int)).toList := by
    intro number member
    rcases VFS.of_mem_str member with same | digit
    · exact absurd same (by decide)
    · exact absurd digit (by decide)
  have chars : (toString (pair.v0 : Int) ++ ":" ++ toString (pair.v1 : Int)).toList =
      (toString (pair.v0 : Int)).toList ++ ':' :: (toString (pair.v1 : Int)).toList := by
    simp
  have parts : PyText.split ':' (toString (pair.v0 : Int) ++ ":" ++ toString (pair.v1 : Int)) =
      [toString (pair.v0 : Int), toString (pair.v1 : Int)] := by
    rw [PyText.split, chars, VFS.splitChars_append _ (digitsOnly pair.v0),
      VFS.splitChars_of_not_mem (digitsOnly pair.v1)]
    simp
  have read : ∀ number : Nat, PyText.int (toString (number : Int)) = .ok (number : Int) := by
    intro number
    have parsed := VFS.pyInt_str number
    rwa [VFS.str, String.ofList_toList] at parsed
  have separated : ':' ∈
      (toString (pair.v0 : Int) ++ ":" ++ toString (pair.v1 : Int)).toList := by
    rw [chars]
    simp
  rw [clean, if_neg (not_not_intro separated), parts]
  exact bind_eq_ok_iff.mpr ⟨_, read pair.v0, bind_eq_ok_iff.mpr ⟨_, read pair.v1, rfl⟩⟩

/-- Other pairs have other data. -/
theorem toData_injective (default : Part × Part) {other : Pair}
    (same : toData default other.ints = toData default pair.ints) : other = pair := by
  rw [toData_ints, toData_ints, Except.ok.injEq, Int.natCast_inj] at same
  have small0 := pair.small0
  have small1 := pair.small1
  have small0' := other.small0
  have small1' := other.small1
  obtain ⟨v0, v1, _, _⟩ := pair
  obtain ⟨v0', v1', _, _⟩ := other
  simp only at same small0 small1 small0' small1'
  congr 1 <;> omega

/-- Numbers given as four bytes come out as tuples. -/
theorem clean_parts_iff (default : Part × Part) {first second : PyVal}
    (isFirst : PartOf pair.v0 first) (isSecond : PartOf pair.v1 second) :
    clean default (.list [first, second]) = .ok pair.parts ↔
      ¬ HoldsBytes (.list [first, second]) := by
  have unpacks : ∀ number : Nat, ∃ part,
      bytesToInt (.bytes (bytes 4 number)) = .ok (.unpacked part) := by
    intro number
    refine ⟨value (bytes 4 number), ?_⟩
    rw [bytesToInt, if_neg (by simp)]
  have keeps : ∀ number : Nat, bytesToInt (.int number) = .ok (.int number) := fun _ => rfl
  have cleaned : ∀ result, clean default (.list [first, second]) = .ok result ↔
      bytesToInt first = .ok result.1 ∧ bytesToInt second = .ok result.2 := by
    intro result
    change (bytesToInt first >>= fun v0 => bytesToInt second >>= fun v1 => pure (v0, v1)) =
      Except.ok result ↔ _
    simp only [bind_eq_ok_iff, pure_eq_ok_iff]
    constructor
    · rintro ⟨v0, first, v1, second, rfl⟩
      exact ⟨first, second⟩
    · rintro ⟨first, second⟩
      exact ⟨_, first, _, second, rfl⟩
  rw [cleaned]
  rcases isFirst with rfl | rfl
  · rcases isSecond with rfl | rfl
    · simp [keeps, parts, HoldsBytes]
    · obtain ⟨part, unpacked⟩ := unpacks pair.v1
      simp [unpacked, parts, HoldsBytes]
  · obtain ⟨part, unpacked⟩ := unpacks pair.v0
    simp [unpacked, parts, HoldsBytes]

theorem cleaned_iff {default : Part × Part} {value : PyVal}
    (represents : pair.Represents default value) :
    clean default value = .ok pair.parts ↔ ¬ HoldsBytes value := by
  cases represents with
  | parts isFirst isSecond => exact clean_parts_iff default isFirst isSecond
  | bytes same =>
      rw [toBytes_ints, Except.ok.injEq] at same
      subst same
      simp [clean_bytes, HoldsBytes]
  | number same =>
      rw [toData_ints, Except.ok.injEq] at same
      subst same
      exact iff_of_true (clean_number default) (by simp [HoldsBytes])
  | text same =>
      obtain ⟨o, cleaned, same⟩ := bind_eq_ok_iff.mp same
      rw [clean_ints, Except.ok.injEq] at cleaned
      subst cleaned
      cases same
      exact iff_of_true (clean_text default) (by simp [HoldsBytes])

/-- The codec does what it is for when no number is given as four bytes and the
first number has its highest bit clear. -/
theorem hashPair_asClaimed_iff {default : Part × Part} {value : PyVal}
    (represents : pair.Represents default value) :
    pair.AsClaimed default value ↔ ¬ HoldsBytes value ∧ pair.v0 < 2 ^ 31 := by
  have small1 := pair.small1
  have fits : (∃ data, toData default pair.ints = .ok data ∧ -2 ^ 63 ≤ data ∧ data < 2 ^ 63) ↔
      pair.v0 < 2 ^ 31 := by
    simp only [toData_ints, Except.ok.injEq, exists_eq_left']
    omega
  constructor
  · intro claimed
    exact ⟨(cleaned_iff represents).mp claimed.cleaned, fits.mp claimed.fits⟩
  · rintro ⟨ints, small⟩
    exact ⟨(cleaned_iff represents).mpr ints,
      fun other different same => different (toData_injective default same), fits.mpr small⟩

end Pair

/-- One and two. -/
def onePair : Pair where
  v0 := 1
  v1 := 2
  small0 := by decide
  small1 := by decide

/-- The pair as a list of ints. -/
theorem onePair_asClaimed :
    onePair.AsClaimed (.int 0, .int 0) onePair.ints ↔
      ¬ Pair.HoldsBytes onePair.ints ∧ onePair.v0 < 2 ^ 31 :=
  Pair.hashPair_asClaimed_iff (.parts (.inl rfl) (.inl rfl))

/-- Four bytes for each number give two tuples. -/
theorem onePair_as_bytes :
    onePair.Represents (.int 0, .int 0) (.list [.bytes (bytes 4 1), .bytes (bytes 4 2)]) ∧
      ¬ onePair.AsClaimed (.int 0, .int 0) (.list [.bytes (bytes 4 1), .bytes (bytes 4 2)]) := by
  refine ⟨.parts (.inr rfl) (.inr rfl), ?_⟩
  intro claimed
  have cleaned := claimed.cleaned
  have isTuple : clean (.int 0, .int 0) (.list [.bytes (bytes 4 1), .bytes (bytes 4 2)]) =
      .ok (.unpacked 1, .unpacked 2) := rfl
  rw [isTuple] at cleaned
  cases cleaned

end HashPair

end JumpscaleX
