import Mathlib.Data.List.Pairwise
import JumpscaleX.SchemaTexts

/-!
# Field names of schemas

The properties of a schema that `get_from_text` accepts, their field names in the Cap'n Proto
schema, and the message in which an object keeps the value of each property under its field
name.
-/

namespace JumpscaleX.SchemaTexts

open Fallible
open PropertyNames

variable {T : Type} {env : Environment T}

/-! ## Names of properties -/

/-- The properties stand in the dict under their names. -/
def Named (children : Dict Text (Property T)) : Prop :=
  ∀ name prop, children.get name = some prop → prop.name = name

theorem named_put {children : Dict Text (Property T)} (named : Named children)
    (prop : Property T) : Named (children.put prop.name prop) := by
  intro name other found
  rw [Dict.get_put] at found
  split at found
  · rename_i same
    rw [← Option.some.inj found]
    exact same.symm
  · exact named name other found

theorem readLine_named {text line : Text} {reading next : Reading T}
    (named : Named reading.children) (done : readLine env text reading line = .ok next) :
    Named next.children := by
  rw [readLine] at done
  split at done
  · rwa [← Except.ok.inj done]
  · split at done
    · dsimp only at done
      split at done
      · split at done
        · rw [← Except.ok.inj done]
          exact named
        · rw [← Except.ok.inj done]
          exact named
      · exact absurd done (by simp)
    · split at done
      · rwa [← Except.ok.inj done]
      · split at done
        · exact absurd done (by simp)
        · obtain ⟨prop, _, added⟩ := bind_eq_ok_iff.mp done
          rw [← Except.ok.inj added]
          exact named_put named prop

theorem schemaInit_named {text url md5 : Text} {schema : ParsedSchema T}
    (done : schemaInit env text url md5 = .ok schema) : Named schema.children := by
  rw [schemaInit] at done
  simp only [bind_eq_ok_iff, pure_eq_ok_iff] at done
  obtain ⟨_, _, _, _, _, _, reading, read, _, _, made⟩ := done
  rw [← made]
  have start : Named (Dict.empty : Dict Text (Property T)) := by
    intro name prop found
    exact absurd found (by simp)
  exact foldlM_keeps (fun reading : Reading T => Named reading.children)
    (fun _ _ _ named step => readLine_named named step) start read

/-- A schema that `get_from_text` returns was made from a text, now or before. -/
theorem named_of_getFromText {registry : Registry env} {md5String : Text → Text}
    {text url : Text} {schema : ParsedSchema T}
    (accepted : getFromText env registry md5String text url = .ok (some schema)) :
    Named schema.children := by
  rw [getFromText] at accepted
  split at accepted
  · exact absurd accepted (by simp)
  · rename_i block _ _
    cases single : getFromTextSingle env registry md5String block url with
    | error problem =>
        rw [single] at accepted
        exact absurd accepted (by simp [Except.map])
    | ok made =>
        rw [single] at accepted
        have same : made = schema := by simpa [Except.map] using accepted
        rw [same, getFromTextSingle] at single
        simp only [bind_eq_ok_iff] at single
        obtain ⟨rewritten, _, md5, _, rest⟩ := single
        split at rest
        · rename_i known found
          obtain ⟨_, _, isKnown⟩ := bind_eq_ok_iff.mp rest
          obtain ⟨_, _, _, init⟩ := registry.made md5 known found
          rw [← Except.ok.inj isKnown]
          exact schemaInit_named init
        · exact schemaInit_named rest

theorem Named.names_eq {schema : ParsedSchema T} (named : Named schema.children) :
    schema.names = schema.children.keys := by
  rw [ParsedSchema.names, ParsedSchema.properties, List.map_map, Dict.keys]
  apply List.map_congr_left
  intro entry member
  exact named entry.1 entry.2 (Dict.get_eq_some_iff.mpr member)

/-! ## Messages -/

section

variable {D V : Type} (casing : Casing) (toData : Property T → V → Except Exn D)

/-- One property in `_capnp_obj`: its value, when there is one, is put under the field name. -/
def putField (items : Dict Text V) (ddict : Dict Text D) (prop : Property T) :
    Except Exn (Dict Text D) :=
  match items.get prop.name with
  | some value => do
      let data ← toData prop value
      return ddict.put (nameCamel casing prop.name) data
  | none => .ok ddict

/-- `_capnp_obj` of an object that is changed, with the fields of its message and the values of
`_deserialized_items`. -/
def capnpObj (properties : List (Property T)) (message : Dict Text D) (items : Dict Text V) :
    Except Exn (Dict Text D) :=
  properties.foldlM (putField casing toData items) message

/-- The field of a property holds the value that was set for it, or what it held before. -/
def FieldKept (message reached : Dict Text D) (items : Dict Text V) (prop : Property T) : Prop :=
  match items.get prop.name with
  | some value => ∃ data, toData prop value = .ok data ∧
      reached.get (nameCamel casing prop.name) = some data
  | none => reached.get (nameCamel casing prop.name) =
      message.get (nameCamel casing prop.name)

variable {casing} {toData} {items : Dict Text V} {message reached : Dict Text D}

theorem putField_other {prop : Property T} (done : putField casing toData items message prop =
      .ok reached) {field : Text} (differs : field ≠ nameCamel casing prop.name) :
    reached.get field = message.get field := by
  rw [putField] at done
  split at done
  · obtain ⟨data, _, added⟩ := bind_eq_ok_iff.mp done
    rw [← Except.ok.inj added, Dict.get_put, if_neg differs]
  · rw [Except.ok.inj done]

theorem putField_here {prop : Property T}
    (done : putField casing toData items message prop = .ok reached) :
    FieldKept casing toData message reached items prop := by
  rw [putField] at done
  rw [FieldKept]
  split at done
  · rename_i value isValue
    obtain ⟨data, isData, added⟩ := bind_eq_ok_iff.mp done
    refine ⟨data, isData, ?_⟩
    rw [← Except.ok.inj added, Dict.get_put, if_pos rfl]
  · rw [Except.ok.inj done]

/-- Properties with other field names leave a field as it is. -/
theorem capnpObj_other {properties : List (Property T)}
    (done : capnpObj casing toData properties message items = .ok reached) {field : Text}
    (absent : field ∉ (properties.map Property.name).map (nameCamel casing)) :
    reached.get field = message.get field := by
  induction properties generalizing message with
  | nil => rw [Except.ok.inj done]
  | cons prop properties induction =>
      rw [capnpObj, List.foldlM_cons, bind_eq_ok_iff] at done
      obtain ⟨between, first, later⟩ := done
      rw [List.map_cons, List.map_cons, List.mem_cons, not_or] at absent
      exact (induction later absent.2).trans (putField_other first absent.1)

/-- With distinct field names every property has its own value in the message. -/
theorem capnpObj_kept {properties : List (Property T)}
    (apart : ((properties.map Property.name).map (nameCamel casing)).Nodup)
    (done : capnpObj casing toData properties message items = .ok reached) :
    ∀ prop ∈ properties, FieldKept casing toData message reached items prop := by
  induction properties generalizing message with
  | nil => simp
  | cons prop properties induction =>
      rw [List.map_cons, List.map_cons, List.nodup_cons] at apart
      rw [capnpObj, List.foldlM_cons, bind_eq_ok_iff] at done
      obtain ⟨between, first, later⟩ := done
      intro other member
      rcases List.mem_cons.mp member with same | inLater
      · have kept := putField_here first
        have field := capnpObj_other later apart.1
        rw [same]
        rw [FieldKept] at kept ⊢
        split at kept
        · obtain ⟨data, isData, stored⟩ := kept
          exact ⟨data, isData, field.trans stored⟩
        · exact field.trans kept
      · have kept := induction apart.2 later other inLater
        have differs : nameCamel casing other.name ≠ nameCamel casing prop.name := by
          intro same
          apply apart.1
          rw [← same]
          exact List.mem_map_of_mem (List.mem_map_of_mem inLater)
        have field := putField_other first differs
        rw [FieldKept] at kept ⊢
        split at kept
        · exact kept
        · exact kept.trans field

end

/-! ## Accepted schemas -/

/-- A schema that `get_from_text` returns for a text. -/
structure Accepted (env : Environment T) where
  registry : Registry env
  md5String : Text → Text
  text : Text
  url : Text
  schema : ParsedSchema T
  accepted : getFromText env registry md5String text url = .ok (some schema)

namespace Accepted

variable (input : Accepted env)

/-- The field names of the properties are distinct, not empty and valid, and the message of an
object holds for each property its own value. -/
def AsClaimed : Prop :=
  MapApart env.toCasing input.schema.names ∧
    ∀ (D V : Type) (toData : Property T → V → Except Exn D) (message reached : Dict Text D)
      (items : Dict Text V),
      capnpObj env.toCasing toData input.schema.properties message items = .ok reached →
        ∀ prop ∈ input.schema.properties, FieldKept env.toCasing toData message reached items prop

/-- The names are words, and those that are alike are the same. -/
def Sound : Prop :=
  (∀ name ∈ input.schema.names, Wordy name) ∧
    ∀ left ∈ input.schema.names, ∀ right ∈ input.schema.names, Alike left right → left = right

/-- A name has one of the characters outside of ASCII that `lower` or `capitalize` makes
characters of ASCII of. -/
def HasOddLetter : Prop :=
  ∃ name ∈ input.schema.names, ∃ char ∈ name, ¬ IsAscii char ∧ env.toAscii char = true

theorem nodup_names : input.schema.names.Nodup := by
  rw [(named_of_getFromText input.accepted).names_eq]
  exact input.schema.children.nodup

theorem apartNames_iff : ApartNames input.schema.names ↔ input.Sound := by
  rw [ApartNames, Sound]
  refine and_congr Iff.rfl ?_
  constructor
  · intro apart left inLeft right inRight alike
    by_contra differs
    have symmetric : Std.Symm (fun one other : Text => ¬ Alike one other) :=
      ⟨fun _ _ unlike alike => unlike ⟨alike.1.symm, alike.2.symm⟩⟩
    exact apart.forall inLeft inRight differs alike
  · intro injective
    apply List.Pairwise.imp_of_mem ?_ input.nodup_names
    intro left right inLeft inRight differs alike
    exact differs (injective left inLeft right inRight alike)

/-- The field names of an accepted schema are as they should be when its names are words of
which no two are alike, and in no other case unless a name has one of the odd letters. -/
theorem field_names_apart_iff : (input.Sound → input.AsClaimed) ∧
    (input.AsClaimed → input.Sound ∨ input.HasOddLetter) := by
  constructor
  · intro sound
    have apart := (input.apartNames_iff.mpr sound).mapApart env.toCasing
    refine ⟨apart, ?_⟩
    intro D V toData message reached items done
    exact capnpObj_kept apart.1 done
  · rintro ⟨apart, _⟩
    by_cases odd : input.HasOddLetter
    · exact .inr odd
    · left
      apply input.apartNames_iff.mp
      apply apart.apartNames
      intro name inNames char inside foreign
      by_contra isOdd
      exact odd ⟨name, inNames, char, inside, foreign, by simpa using isOdd⟩

end Accepted

theorem exists_lower_foreign {text : Text} {char : Char} (member : char ∈ text)
    (foreign : ¬ IsAscii char) : ∃ cased ∈ text.map Char.toLower, ¬ IsAscii cased := by
  refine ⟨char.toLower, List.mem_map_of_mem member, ?_⟩
  rw [IsAscii, Nat.not_lt] at foreign ⊢
  rw [Letters.toNat_toLower]
  split_ifs <;> omega

theorem exists_capitalize_foreign {text : Text} {char : Char} (member : char ∈ text)
    (foreign : ¬ IsAscii char) : ∃ cased ∈ capitalizeAscii text, ¬ IsAscii cased := by
  rw [IsAscii, Nat.not_lt] at foreign
  cases text with
  | nil => simp at member
  | cons first rest =>
      rcases List.mem_cons.mp member with isFirst | later
      · refine ⟨first.toUpper, List.mem_cons_self, ?_⟩
        rw [← isFirst, IsAscii, Nat.not_lt, Letters.toNat_toUpper]
        split_ifs <;> omega
      · refine ⟨char.toLower, List.mem_cons_of_mem _ (List.mem_map_of_mem later), ?_⟩
        rw [IsAscii, Nat.not_lt, Letters.toNat_toLower]
        split_ifs <;> omega

/-- `lower` and `capitalize` of texts whose characters outside of ASCII have no case. -/
def asciiCasing : Casing where
  lower := List.map Char.toLower
  capitalize := capitalizeAscii
  toAscii := fun _ => false
  lower_ascii := fun _ _ => rfl
  capitalize_ascii := fun _ _ => rfl
  lower_foreign := fun _ _ member foreign _ => exists_lower_foreign member foreign
  capitalize_foreign := fun _ _ member foreign _ => exists_capitalize_foreign member foreign

/-- An environment in which a type is its name. -/
def plainTypes : Environment Text where
  toCasing := asciiCasing
  int := fun text => PyText.int (String.ofList text)
  checkInt := fun text => !text.isEmpty && text.all Char.isDigit
  typeGet := fun name _ => .ok name
  capnpType := fun _ => "Text".toList

def noSchemas : Registry plainTypes where
  find := fun _ => none
  made := by simp

/-- Two properties whose names differ in a capital only. -/
def namesText : Text :=
  "@url = test.names\nuserName = (S)\nusername = (S)".toList

/-- The schema is accepted, and both its properties have the field name `username`. -/
theorem field_names_clash : ∃ input : Accepted plainTypes,
    input.text = namesText ∧ ¬ input.AsClaimed := by
  have parsed : ((getFromText plainTypes noSchemas id namesText []).toOption.bind id).map
      ParsedSchema.names = some ["userName".toList, "username".toList] := by rfl
  cases accepted : getFromText plainTypes noSchemas id namesText [] with
  | error problem =>
      rw [accepted] at parsed
      exact absurd parsed (by simp [Except.toOption])
  | ok result =>
      cases result with
      | none =>
          rw [accepted] at parsed
          exact absurd parsed (by simp [Except.toOption])
      | some schema =>
          rw [accepted] at parsed
          have names : schema.names = ["userName".toList, "username".toList] := by
            simpa [Except.toOption] using parsed
          refine ⟨⟨noSchemas, id, namesText, [], schema, accepted⟩, rfl, ?_⟩
          rintro ⟨⟨distinct, _⟩, _⟩
          rw [names] at distinct
          exact absurd distinct (by decide)

end JumpscaleX.SchemaTexts
