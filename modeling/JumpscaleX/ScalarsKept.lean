import JumpscaleX.ScalarTexts

/-!
# Scalars read back as written

The numbers and the times, and for which values the scalar types keep what is
assigned.
-/

namespace JumpscaleX.Scalars

open Fallible PyText

variable {machine : Machine}

section

variable {moment : Moment} {default : Default} {value cleaned : Scalar}

/-! ## Numbers -/

theorem map_ok {α β : Type} {result : Except Exn α} {wrap : α → β} {wrapped : β}
    (isWrapped : result.map wrap = .ok wrapped) : ∃ inner, result = .ok inner ∧ wrap inner = wrapped := by
  cases result with
  | error problem => cases isWrapped
  | ok inner => exact ⟨inner, rfl, Except.ok.inj isWrapped⟩

theorem ipport_lasts_iff (accepted : clean machine moment .ipport default value = .ok cleaned) :
    Lasts machine .ipport default cleaned ↔ value.truthy = true ∨ default = "" := by
  have acceptedHere : ipportClean machine default value = .ok cleaned := accepted
  have again {port : Int} (least : 0 < port) (most : port ≤ 65535) :
      Lasts machine .ipport default (.int port) := by
    constructor
    case again =>
      intro _
      show ipportClean machine default (.int port) = .ok (.int port)
      have nonzero : port ≠ 0 := by omega
      simp [ipportClean, Scalar.truthy, nonzero, int, least, most]
    case inRange =>
      constructor
      · omega
      · omega
  by_cases full : value.truthy = true
  · refine iff_of_true ?_ (Or.inl full)
    unfold ipportClean at acceptedHere
    rw [if_neg (not_not.mpr full)] at acceptedHere
    split at acceptedHere
    · split at acceptedHere
      · rename_i bounds
        cases acceptedHere
        exact again bounds.1 bounds.2
      · cases acceptedHere
    · cases acceptedHere
  · rw [or_iff_right full]
    unfold ipportClean at acceptedHere
    rw [if_pos full] at acceptedHere
    split at acceptedHere
    · rename_i unset
      cases acceptedHere
      exact iff_of_true (again (by decide) (by decide)) unset
    · rename_i given
      cases acceptedHere
      constructor
      · intro lasts
        exact lasts.inRange.elim
      · intro unset
        exact absurd unset given

/-- `Integer` and `Int64` keep a number as it is, when their field holds it. -/
theorem integer_lasts_iff {kind : Kind} {field : CapnpField} {unset : Int}
    (isField : capnpField kind = field)
    (holds : ∀ number : Int, field.Holds (.int number) ↔ field.InRange number)
    (small : ∀ value : Bool, field.Holds (.bool value))
    (isClean : ∀ moment : Moment,
      clean machine moment kind default = integerClean unset default)
    (unsetHeld : field.InRange unset)
    (accepted : integerClean unset default value = .ok cleaned) :
    Lasts machine kind default cleaned ↔ IntegerKept field default value := by
  have lasting (number : Int) :
      Lasts machine kind default (.int number) ↔ field.InRange number := by
    constructor
    · intro lasts
      have held := lasts.inRange
      rw [isField] at held
      exact (holds number).mp held
    · intro held
      refine ⟨fun later => ?_, ?_⟩
      · rw [isClean]
        rfl
      · rw [isField]
        exact (holds number).mpr held
  have computed {result : Except Exn Int} (isResult : result.map Scalar.int = .ok cleaned) :
      Lasts machine kind default cleaned ↔
        ∀ number, result = .ok number → field.InRange number := by
    obtain ⟨number, isNumber, rfl⟩ := map_ok isResult
    rw [lasting, isNumber]
    simp
  cases value with
  | none =>
      by_cases none : default = ""
      · have isUnset : cleaned = .int unset := by
          simpa [integerClean, none, eq_comm] using accepted
        rw [isUnset, lasting]
        exact iff_of_true unsetHeld (Or.inl none)
      · have isResult : (integerText default).map Scalar.int = .ok cleaned := by
          simpa [integerClean, none] using accepted
        rw [computed isResult]
        exact (or_iff_right none).symm
  | bool value =>
      cases accepted
      refine iff_of_true ⟨fun later => ?_, ?_⟩ trivial
      · rw [isClean]
        rfl
      · rw [isField]
        exact small value
  | int value =>
      cases accepted
      exact lasting value
  | float value => exact computed accepted
  | str text => exact computed accepted
  | bytes value => cases accepted
  | other object => cases accepted

theorem float_lasts (accepted : clean machine moment .float default value = .ok cleaned) :
    Lasts machine .float default cleaned := by
  have isFloat : ∃ number, cleaned = .float number := by
    have acceptedHere : floatClean machine default value = .ok cleaned := accepted
    unfold floatClean at acceptedHere
    split at acceptedHere
    · split at acceptedHere
      · cases acceptedHere
        exact ⟨_, rfl⟩
      · obtain ⟨number, -, rfl⟩ := map_ok acceptedHere
        exact ⟨number, rfl⟩
    · obtain ⟨number, -, rfl⟩ := map_ok acceptedHere
      exact ⟨number, rfl⟩
  obtain ⟨number, rfl⟩ := isFloat
  exact ⟨fun _ => rfl, trivial⟩

theorem percent_lasts (accepted : clean machine moment .percent default value = .ok cleaned) :
    Lasts machine .percent default cleaned := by
  have isFloat : ∃ number, cleaned = .float number := by
    have acceptedHere : percentClean default value = .ok cleaned := accepted
    unfold percentClean at acceptedHere
    split at acceptedHere
    · split at acceptedHere
      · cases acceptedHere
        exact ⟨_, rfl⟩
      · obtain ⟨number, -, rfl⟩ := map_ok acceptedHere
        exact ⟨number, rfl⟩
    · obtain ⟨number, -, rfl⟩ := map_ok acceptedHere
      exact ⟨number, rfl⟩
    · cases acceptedHere
      exact ⟨_, rfl⟩
    · cases acceptedHere
      exact ⟨_, rfl⟩
    · cases acceptedHere
      exact ⟨_, rfl⟩
    · cases acceptedHere
  obtain ⟨number, rfl⟩ := isFloat
  exact ⟨fun _ => rfl, trivial⟩

theorem booleanText_ok {text : String} (isText : booleanText text = .ok cleaned) :
    ∃ truth, cleaned = .bool truth := by
  unfold booleanText at isText
  split at isText
  · cases isText
    exact ⟨_, rfl⟩
  · cases isText

theorem boolean_lasts (accepted : clean machine moment .bool default value = .ok cleaned) :
    Lasts machine .bool default cleaned := by
  have isBool : ∃ truth, cleaned = .bool truth := by
    have acceptedHere : booleanClean default value = .ok cleaned := accepted
    unfold booleanClean at acceptedHere
    split at acceptedHere
    · split at acceptedHere
      · cases acceptedHere
        exact ⟨_, rfl⟩
      · exact booleanText_ok acceptedHere
    · exact booleanText_ok acceptedHere
    · cases acceptedHere
      exact ⟨_, rfl⟩
  obtain ⟨truth, rfl⟩ := isBool
  refine ⟨fun _ => ?_, trivial⟩
  cases truth <;> rfl

theorem bytesFromString_ok {text : String} (isText : bytesFromString machine text = .ok cleaned) :
    ∃ content, cleaned = .bytes content := by
  unfold bytesFromString at isText
  split at isText
  · cases isText
    exact ⟨_, rfl⟩
  · split at isText
    · cases isText
      exact ⟨_, rfl⟩
    · cases isText

theorem bytes_lasts (accepted : clean machine moment .bytes default value = .ok cleaned) :
    Lasts machine .bytes default cleaned := by
  have isBytes : ∃ content, cleaned = .bytes content := by
    have acceptedHere : bytesClean machine default value = .ok cleaned := accepted
    unfold bytesClean at acceptedHere
    split at acceptedHere
    · split at acceptedHere
      · cases acceptedHere
        exact ⟨_, rfl⟩
      · exact bytesFromString_ok acceptedHere
    · exact bytesFromString_ok acceptedHere
    · cases acceptedHere
      exact ⟨_, rfl⟩
    · cases acceptedHere
  obtain ⟨content, rfl⟩ := isBytes
  exact ⟨fun _ => rfl, trivial⟩

/-! ## Times -/

theorem datetime_number_lasts (number : Int) :
    Lasts machine .datetime default (.int number) ↔ CapnpField.UInt32.InRange number := by
  constructor
  · intro lasts
    exact lasts.inRange
  · intro held
    exact ⟨fun _ => rfl, held⟩

theorem datetime_lasts_iff
    (accepted : clean machine moment .datetime default value = .ok cleaned) :
    Lasts machine .datetime default cleaned ↔ DatetimeKept machine moment default value := by
  have computed (isResult : (datetimeNumber machine moment value).map Scalar.int = .ok cleaned) :
      Lasts machine .datetime default cleaned ↔
        ∀ epoch, datetimeNumber machine moment value = .ok epoch →
          CapnpField.UInt32.InRange epoch := by
    obtain ⟨number, isNumber, rfl⟩ := map_ok isResult
    rw [datetime_number_lasts, isNumber]
    simp
  have acceptedHere : datetimeClean machine moment default value = .ok cleaned := accepted
  cases value with
  | none =>
      simp only [datetimeClean] at acceptedHere
      split at acceptedHere
      · rename_i unset
        cases acceptedHere
        exact iff_of_true ((datetime_number_lasts 0).mpr ⟨by decide, by decide⟩) unset
      · rename_i given
        cases acceptedHere
        constructor
        · intro lasts
          exact lasts.inRange.elim
        · intro unset
          exact absurd unset given
  | bool value =>
      cases acceptedHere
      refine iff_of_true ⟨fun _ => rfl, ?_⟩ trivial
      cases value
      · exact ⟨by decide, by decide⟩
      · exact ⟨by decide, by decide⟩
  | int number => exact computed acceptedHere
  | float value => exact computed acceptedHere
  | str text => exact computed acceptedHere
  | bytes content => exact computed acceptedHere
  | other object => exact computed acceptedHere

theorem date_number_lasts (moment : Moment) (number : Int) :
    Lasts machine .date default (.int number) ↔
      CapnpField.UInt32.InRange number ∧ (number = 0 ∨ dayOf machine number = .ok number) := by
  have cleanNumber (later : Moment) : clean machine later .date default (.int number) =
      if number = 0 then .ok (.int 0) else (dayOf machine number).map .int := by
    show (dateNumber machine later (.int number)).map Scalar.int = _
    by_cases zero : number = 0
    · simp [dateNumber, NoDate, dateText, Scalar.equals, zero, Except.map]
    · simp [dateNumber, NoDate, dateText, Scalar.equals, zero, datetimeNumber, bind, Except.bind]
  constructor
  · intro lasts
    refine ⟨lasts.inRange, ?_⟩
    have again := lasts.again moment
    rw [cleanNumber] at again
    by_cases zero : number = 0
    · exact Or.inl zero
    · rw [if_neg zero] at again
      obtain ⟨start, isStart, same⟩ := map_ok again
      rw [isStart, Scalar.int.inj same]
      exact Or.inr rfl
  · intro kept
    refine ⟨fun later => ?_, kept.1⟩
    rw [cleanNumber]
    rcases kept.2 with zero | same
    · rw [if_pos zero, zero]
    · rw [same]
      split
      case isTrue zero => rw [zero]
      case isFalse => rfl

theorem date_lasts_iff (accepted : clean machine moment .date default value = .ok cleaned) :
    Lasts machine .date default cleaned ↔ DateKept machine moment default value := by
  have computed (isResult : (dateNumber machine moment value).map Scalar.int = .ok cleaned) :
      Lasts machine .date default cleaned ↔ (NoDate (dateText value) ∨
        ∀ epoch, datetimeNumber machine moment (dateText value) = .ok epoch →
          DayKept machine epoch) := by
    obtain ⟨number, isNumber, rfl⟩ := map_ok isResult
    rw [date_number_lasts moment]
    unfold dateNumber at isNumber
    split at isNumber
    case isTrue unset =>
      cases isNumber
      exact iff_of_true ⟨⟨by decide, by decide⟩, Or.inl rfl⟩ (Or.inl unset)
    case isFalse given =>
      rw [or_iff_right given]
      obtain ⟨epoch, isEpoch, isStart⟩ := bind_eq_ok_iff.mp isNumber
      rw [isEpoch]
      constructor
      · intro kept other isOther start starts
        cases isOther
        rw [isStart] at starts
        cases starts
        exact kept
      · intro kept
        exact kept epoch rfl number isStart
  have acceptedHere : dateClean machine moment default value = .ok cleaned := accepted
  cases value with
  | none =>
      simp only [dateClean] at acceptedHere
      split at acceptedHere
      · rename_i unset
        cases acceptedHere
        refine iff_of_true ?_ unset
        exact (date_number_lasts moment 0).mpr ⟨⟨by decide, by decide⟩, Or.inl rfl⟩
      · rename_i given
        cases acceptedHere
        constructor
        · intro lasts
          exact lasts.inRange.elim
        · intro unset
          exact absurd unset given
  | bool value => exact computed acceptedHere
  | int number => exact computed acceptedHere
  | float value => exact computed acceptedHere
  | str text => exact computed acceptedHere
  | bytes content => exact computed acceptedHere
  | other object => exact computed acceptedHere

theorem duration_number_lasts (number : Int) :
    Lasts machine .duration default (.int number) ↔ CapnpField.UInt32.InRange number := by
  constructor
  · intro lasts
    exact lasts.inRange
  · intro held
    refine ⟨fun later => ?_, held⟩
    show durationClean (.int number) = .ok (.int number)
    by_cases zero : number = 0
    · simp [durationClean, Scalar.equals, zero]
    · simp [durationClean, Scalar.equals, zero]

theorem duration_lasts_iff
    (accepted : clean machine moment .duration default value = .ok cleaned) :
    Lasts machine .duration default cleaned ↔ DurationKept value := by
  have acceptedHere : durationClean value = .ok cleaned := accepted
  unfold durationClean at acceptedHere
  split at acceptedHere
  case isTrue unset =>
    cases acceptedHere
    refine iff_of_true ((duration_number_lasts 0).mpr ⟨by decide, by decide⟩) ?_
    cases value with
    | int seconds =>
        have zero : seconds = 0 := by simpa [Scalar.equals] using unset
        rw [zero]
        exact ⟨by decide, by decide⟩
    | str text =>
        have empty : text = "0" ∨ text = "" := by simpa [Scalar.equals] using unset
        intro seconds isSeconds
        rw [Duration.cleanText, if_pos empty] at isSeconds
        cases isSeconds
        exact ⟨by decide, by decide⟩
    | none => trivial
    | bool value => trivial
    | float value => trivial
    | bytes content => trivial
    | other object => trivial
  case isFalse given =>
    split at acceptedHere
    · obtain ⟨number, isNumber, rfl⟩ := map_ok acceptedHere
      rw [duration_number_lasts]
      simp [DurationKept, isNumber]
    · cases acceptedHere
      exact duration_number_lasts _
    · rename_i seconds
      cases acceptedHere
      refine iff_of_true ⟨fun later => ?_, ?_⟩ trivial
      · cases seconds
        · exact absurd (Or.inl rfl) given
        · rfl
      · cases seconds
        · exact ⟨by decide, by decide⟩
        · exact ⟨by decide, by decide⟩
    · cases acceptedHere

/-! ## All scalar types -/

theorem lasts_iff_kept {kind : Kind}
    (accepted : clean machine moment kind default value = .ok cleaned) :
    Lasts machine kind default cleaned ↔ Kept machine moment kind default value := by
  cases kind with
  | string => exact string_lasts_iff accepted
  | multiline => exact multiline_lasts_iff accepted
  | email => exact iff_of_true (email_lasts accepted) trivial
  | tel => exact tel_lasts_iff accepted
  | url => exact url_lasts_iff accepted
  | guid => exact iff_of_true (guid_lasts accepted) trivial
  | iprange => exact iprange_lasts_iff accepted
  | ipport => exact ipport_lasts_iff accepted
  | int =>
      apply integer_lasts_iff rfl (fun _ => Iff.rfl) _ (fun _ => rfl) _ accepted
      · intro value
        cases value
        · exact ⟨by decide, by decide⟩
        · exact ⟨by decide, by decide⟩
      · exact ⟨by decide, by decide⟩
  | int64 =>
      apply integer_lasts_iff rfl (fun _ => Iff.rfl) _ (fun _ => rfl) _ accepted
      · intro value
        cases value
        · exact ⟨by decide, by decide⟩
        · exact ⟨by decide, by decide⟩
      · exact ⟨by decide, by decide⟩
  | float => exact iff_of_true (float_lasts accepted) trivial
  | percent => exact iff_of_true (percent_lasts accepted) trivial
  | bool => exact iff_of_true (boolean_lasts accepted) trivial
  | bytes => exact iff_of_true (bytes_lasts accepted) trivial
  | datetime => exact datetime_lasts_iff accepted
  | date => exact date_lasts_iff accepted
  | duration => exact duration_lasts_iff accepted

end

/-- A scalar value reads back as written exactly when `Kept` says so. -/
theorem scalars_read_back_iff {moment : Moment} {kind : Kind} {default : Default}
    (assigned : Assigned machine moment kind default) :
    AsClaimed machine assigned ↔ Kept machine moment kind default assigned.value := by
  rw [asClaimed_iff_lasts]
  exact lasts_iff_kept assigned.accepted

/-! ## A text in two kinds of quotes -/

/-- A host that knows ASCII and runs in UTC. -/
def plainMachine : Machine where
  floatText
    | .finite value => toString value.num ++ ".0"
    | .infinite negative => if negative then "-inf" else "inf"
    | .nan => "nan"
  decode content := some (String.ofList (content.map Char.ofNat))
  encode text := text.toList.map Char.toNat
  b64decode _ := none
  ipv6Interface _ := false
  ipv4Interface value := decide (value = .str "127.0.0.1/8")
  mktimeStrptime _ _ := .error (.valueError "time data does not match format")
  localDay epoch := .ok (epoch / 86400)
  dayStart day := day * 86400

def newYear : Moment where
  epoch := 1577836800
  year := "2020"
  generateGUID := "00000000-0000-4000-8000-000000000000"
  isGuid_generateGUID := by decide

/-- The second cleaning takes the second quotes off. -/
def twiceQuoted : Assigned plainMachine newYear .string "" where
  value := .str "'\"a\"'"
  cleaned := .str "\"a\""
  accepted := by rfl

theorem twiceQuoted_not_kept :
    ¬ ∀ (machine : Machine) (moment : Moment) (kind : Kind) (default : Default)
      (assigned : Assigned machine moment kind default), AsClaimed machine assigned := by
  intro all
  have again : Except.ok (Scalar.str "a") = .ok (.str "\"a\"") :=
    (all plainMachine newYear .string "" twiceQuoted).cleanedAgain newYear
  have same : Scalar.str "a" = .str "\"a\"" := Except.ok.inj again
  exact absurd same (by decide)

end JumpscaleX.Scalars
