import JumpscaleX.ArgsReplace
import Mathlib.Data.List.Nodup

/-!
# Exact templates

What replacing the arguments of a text is to give: each line with its placeholders
filled, each by the value of the first dict that has its name, and the text as it
stands around them.
-/

namespace JumpscaleX.TextTools

open Fallible Templates

/-- A call of `args_replace`. -/
structure Replacement where
  tools : Tools
  depth : Nat
  options : Options
  argsList : List (List (String × PyVal))

namespace Replacement

variable (call : Replacement)

def safe : PyVal → Except Exn String :=
  dataSerializerSafe call.tools call.depth

/-- The value of a name in the first dict that has it. -/
def given (name : String) : Option PyVal :=
  call.argsList.flatten.lookup name

/-- The text of a value. -/
def textForm (name : String) (val : PyVal) : String :=
  match argProcess call.tools call.safe call.options name val with
  | .ok val => strOf call.tools val
  | .error _ => ""

/-- What a colour is replaced by. -/
def colour (name : String) : Option String :=
  (call.tools.MYCOLORS.lookup name).map
    (fun colour => if call.options.ignoreColors = true then "" else colour)

/-- What a name is replaced by. -/
def named (name : String) : Option String :=
  match call.given name with
  | some val => some (call.textForm name val)
  | none => call.colour name

/-- The name in a field, in front of a conversion and a format. -/
def nameOf (field : List Char) : String :=
  String.ofList (field.takeWhile (fun char => char ≠ '!' && char ≠ ':'))

/-- The conversion and the format of a field. -/
def formatOf (field : List Char) : List Char :=
  field.dropWhile (fun char => char ≠ '!' && char ≠ ':')

/-- What a field is to be replaced by; `formatted` formats a text. -/
def claimed (formatted : String → List Char → String) (field : List Char) :
    Option (List Char) :=
  match call.named (String.ofList field) with
  | some text => some text.toList
  | none =>
      if formatOf field = [] then none
      else (call.named (nameOf field)).map (fun text => (formatted text (formatOf field)).toList)

/-- Every line of a text is to be filled, by itself. -/
def Exact (formatted : String → List Char → String) (content : String) : Prop :=
  argsReplace call.tools call.depth call.options call.argsList content =
    .ok (String.ofList (['\n'].intercalate
      ((PyText.splitChars '\n' content.toList).map
        (filled '{' '}' (call.claimed formatted)))))

/-- The value of a field in the first dict that has it is used, and no colour takes
its place; a conversion or a format stands in fields of unknown names only. -/
def Used (field : List Char) : Prop :=
  let name := String.ofList field
  match call.given name with
  | some val =>
      (∃ used, argProcess call.tools call.safe call.options name val = .ok used ∧
        used.truthy = true) ∧ call.colour name = none
  | none =>
      (call.colour name).isSome = true ∨ formatOf field = [] ∨ call.named (nameOf field) = none

/-- The names with their texts. -/
def texts (argsNew : List (String × PyVal)) : List (List Char × List Char) :=
  argsNew.map (fun arg => (arg.1.toList, (strOf call.tools arg.2).toList))

/-- A line whose placeholders are filled: the arguments have texts and names, there are
no empty braces, the values are those of the first dict that has the name, and no value
makes a placeholder of a name that is replaced later. -/
structure SoundLine (line : List Char) : Prop where
  combined : ∃ argsNew, argsCombine call.tools call.safe call.options call.argsList =
      .ok argsNew ∧ (∀ arg ∈ argsNew, arg.1 ≠ "") ∧ Settled '{' '}' (call.texts argsNew) line
  braces : occurrences "{}".toList line = 0
  used : ∀ field, .field field ∈ pieces '{' '}' line → call.Used field

/-- A call with arguments on a text whose lines are all sound. -/
structure Sound (content : String) : Prop where
  some : call.argsList ≠ []
  lines : ∀ line ∈ PyText.splitChars '\n' content.toList, '{' ∈ line → call.SoundLine line

end Replacement

/-! ## The arguments -/

theorem lookup_setEntry (key other : String) (value : PyVal) (entries : List (String × PyVal)) :
    (JsonText.setEntry key value entries).lookup other =
      if other = key then some value else entries.lookup other := by
  induction entries with
  | nil =>
      by_cases same : other = key
      · simp [JsonText.setEntry, same]
      · have different : (other == key) = false := beq_eq_false_iff_ne.mpr same
        simp [JsonText.setEntry, List.lookup_cons, different, same]
  | cons entry entries induction =>
      obtain ⟨name, old⟩ := entry
      rw [JsonText.setEntry]
      by_cases isKey : name = key
      · rw [if_pos isKey]
        by_cases same : other = key
        · rw [if_pos same, same, List.lookup_cons_self]
        · have different : (other == key) = false := beq_eq_false_iff_ne.mpr same
          have differentName : (other == name) = false := by rw [isKey]; exact different
          rw [if_neg same, List.lookup_cons, List.lookup_cons, different, differentName]
      · rw [if_neg isKey, List.lookup_cons, List.lookup_cons]
        cases isName : other == name with
        | true =>
            have same : other = name := eq_of_beq isName
            rw [if_neg (by rw [same]; exact isKey)]
        | false => exact induction

theorem keys_setEntry (key : String) (value : PyVal) (entries : List (String × PyVal)) :
    (JsonText.setEntry key value entries).map Prod.fst =
      if key ∈ entries.map Prod.fst then entries.map Prod.fst
      else entries.map Prod.fst ++ [key] := by
  induction entries with
  | nil => rfl
  | cons entry entries induction =>
      obtain ⟨name, old⟩ := entry
      rw [JsonText.setEntry]
      by_cases isKey : name = key
      · rw [if_pos isKey, List.map_cons, List.map_cons, isKey, if_pos List.mem_cons_self]
      · rw [if_neg isKey, List.map_cons, induction, List.map_cons]
        by_cases there : key ∈ entries.map Prod.fst
        · rw [if_pos there, if_pos (List.mem_cons_of_mem _ there)]
        · rw [if_neg there, if_neg]
          · rfl
          · intro member
            rcases List.mem_cons.mp member with same | member
            · exact isKey same.symm
            · exact there member

theorem distinct_setEntry {key : String} {value : PyVal} {entries : List (String × PyVal)}
    (distinct : (entries.map Prod.fst).Nodup) :
    ((JsonText.setEntry key value entries).map Prod.fst).Nodup := by
  rw [keys_setEntry]
  split
  · exact distinct
  · rename_i absent
    rw [List.nodup_append]
    refine ⟨distinct, List.nodup_singleton key, ?_⟩
    intro other member name isKey same
    rw [List.mem_singleton.mp isKey] at same
    exact absent (same ▸ member)

section Combining

variable {tools : Tools} {safe : PyVal → Except Exn String} {options : Options}

/-- What one argument adds. -/
theorem addArg_cases {argsNew after : List (String × PyVal)} {arg : String × PyVal}
    (added : addArg tools safe options argsNew arg = .ok after) :
    ((argsNew.lookup arg.1).isSome = true ∧ after = argsNew) ∨
      (argsNew.lookup arg.1 = none ∧ ∃ val,
        argProcess tools safe options arg.1 arg.2 = .ok val ∧
          after = if val.truthy = true then argsNew ++ [(arg.1, val)] else argsNew) := by
  rw [addArg] at added
  split at added
  · rename_i there
    cases added
    exact .inl ⟨there, rfl⟩
  · rename_i fresh
    obtain ⟨val, processed, done⟩ := bind_eq_ok_iff.mp added
    cases done
    exact .inr ⟨Option.not_isSome_iff_eq_none.mp fresh, val, processed, rfl⟩

theorem addArg_distinct {argsNew after : List (String × PyVal)} {arg : String × PyVal}
    (distinct : (argsNew.map Prod.fst).Nodup)
    (added : addArg tools safe options argsNew arg = .ok after) :
    (after.map Prod.fst).Nodup := by
  rcases addArg_cases added with ⟨_, rfl⟩ | ⟨fresh, val, _, rfl⟩
  · exact distinct
  · split
    · rw [List.map_append, List.nodup_append]
      refine ⟨distinct, List.nodup_singleton _, ?_⟩
      intro name member other isKey same
      rw [List.mem_singleton.mp isKey] at same
      obtain ⟨entry, inArgs, isName⟩ := List.mem_map.mp member
      have different := List.lookup_eq_none_iff.mp fresh entry inArgs
      rw [isName, same] at different
      simp at different
    · exact distinct

/-- An argument changes no other name. -/
theorem addArg_lookup {argsNew after : List (String × PyVal)} {arg : String × PyVal}
    (added : addArg tools safe options argsNew arg = .ok after) {name : String}
    (other : name ≠ arg.1 ∨ (argsNew.lookup name).isSome = true) :
    after.lookup name = argsNew.lookup name := by
  rcases addArg_cases added with ⟨_, rfl⟩ | ⟨fresh, val, _, rfl⟩
  · rfl
  · split
    · rw [List.lookup_append]
      have different : name ≠ arg.1 := by
        rcases other with different | there
        · exact different
        · rintro rfl
          rw [fresh] at there
          cases there
      cases found : argsNew.lookup name with
      | some val => rfl
      | none => simp [List.lookup_cons, beq_eq_false_iff_ne.mpr different]
    · rfl

theorem foldlM_addArg_distinct {args argsNew after : List (String × PyVal)}
    (distinct : (argsNew.map Prod.fst).Nodup)
    (added : args.foldlM (addArg tools safe options) argsNew = .ok after) :
    (after.map Prod.fst).Nodup := by
  induction args generalizing argsNew with
  | nil =>
      cases added
      exact distinct
  | cons arg args induction =>
      rw [List.foldlM_cons] at added
      obtain ⟨between, first, later⟩ := bind_eq_ok_iff.mp added
      exact induction (addArg_distinct distinct first) later

/-- A name that no argument has, or that is there, keeps its value. -/
theorem foldlM_addArg_lookup {args argsNew after : List (String × PyVal)} {name : String}
    (added : args.foldlM (addArg tools safe options) argsNew = .ok after)
    (other : args.lookup name = none ∨ (argsNew.lookup name).isSome = true) :
    after.lookup name = argsNew.lookup name := by
  induction args generalizing argsNew with
  | nil =>
      cases added
      rfl
  | cons arg args induction =>
      rw [List.foldlM_cons] at added
      obtain ⟨between, first, later⟩ := bind_eq_ok_iff.mp added
      have kept : between.lookup name = argsNew.lookup name := by
        apply addArg_lookup first
        rcases other with absent | there
        · have different := List.lookup_eq_none_iff.mp absent arg List.mem_cons_self
          exact .inl (by simpa using different)
        · exact .inr there
      rw [← kept]
      apply induction later
      rcases other with absent | there
      · rw [List.lookup_eq_none_iff] at absent ⊢
        exact .inl (fun entry member => absent entry (List.mem_cons_of_mem _ member))
      · rw [kept]
        exact .inr there

/-- The first value of a name is used when it counts as true. -/
theorem foldlM_addArg_first {args argsNew after : List (String × PyVal)} {name : String}
    {val used : PyVal} (added : args.foldlM (addArg tools safe options) argsNew = .ok after)
    (fresh : argsNew.lookup name = none) (first : args.lookup name = some val)
    (processed : argProcess tools safe options name val = .ok used)
    (truthy : used.truthy = true) : after.lookup name = some used := by
  induction args generalizing argsNew with
  | nil => cases first
  | cons arg args induction =>
      obtain ⟨key, value⟩ := arg
      rw [List.foldlM_cons] at added
      obtain ⟨between, addedFirst, later⟩ := bind_eq_ok_iff.mp added
      by_cases same : name = key
      · subst same
        rw [List.lookup_cons_self] at first
        cases first
        have kept : between.lookup name = some used := by
          rcases addArg_cases addedFirst with ⟨there, _⟩ | ⟨_, other, isUsed, rfl⟩
          · rw [fresh] at there
            cases there
          · rw [processed] at isUsed
            cases isUsed
            rw [if_pos truthy, List.lookup_append, fresh]
            simp
        rw [foldlM_addArg_lookup later (.inr (by rw [kept]; rfl)), kept]
      · rw [List.lookup_cons, beq_eq_false_iff_ne.mpr same] at first
        have kept := addArg_lookup addedFirst (.inl same)
        exact induction later (kept.trans fresh) first

end Combining

section Colours

variable {colours : List (String × String)} (shown : String → String)

theorem foldl_colours_distinct {args : List (String × PyVal)}
    (distinct : (args.map Prod.fst).Nodup) :
    ((colours.foldl (fun args colour =>
      JsonText.setEntry colour.1 (.str (shown colour.2)) args) args).map Prod.fst).Nodup := by
  induction colours generalizing args with
  | nil => exact distinct
  | cons colour colours induction => exact induction (distinct_setEntry distinct)

/-- A colour takes the place of an argument. -/
theorem lookup_foldl_colours (distinct : (colours.map Prod.fst).Nodup)
    (args : List (String × PyVal)) (name : String) :
    (colours.foldl (fun args colour =>
      JsonText.setEntry colour.1 (.str (shown colour.2)) args) args).lookup name =
        ((colours.lookup name).map (fun colour => PyVal.str (shown colour))).or
          (args.lookup name) := by
  induction colours generalizing args with
  | nil => rfl
  | cons colour colours induction =>
      obtain ⟨key, colour⟩ := colour
      obtain ⟨fresh, distinct⟩ := List.nodup_cons.mp distinct
      rw [List.foldl_cons, induction distinct, lookup_setEntry]
      by_cases same : name = key
      · have absent : colours.lookup name = none := by
          rw [List.lookup_eq_none_iff]
          intro entry member
          have different : name ≠ entry.1 := by
            intro equal
            exact fresh (List.mem_map.mpr ⟨entry, member, equal.symm.trans same⟩)
          simpa using different
        rw [if_pos same, absent, same, List.lookup_cons_self]
        rfl
      · rw [if_neg same, List.lookup_cons, beq_eq_false_iff_ne.mpr same]

end Colours

namespace Replacement

variable {call : Replacement} {argsNew : List (String × PyVal)}

/-- The arguments of all dicts, before the colours. -/
theorem exists_of_combined
    (combined : argsCombine call.tools call.safe call.options call.argsList = .ok argsNew) :
    ∃ args, call.argsList.flatten.foldlM (addArg call.tools call.safe call.options) [] =
        .ok args ∧
      argsNew = call.tools.MYCOLORS.foldl (fun args colour => JsonText.setEntry colour.1
        (.str (if call.options.ignoreColors = true then "" else colour.2)) args) args := by
  obtain ⟨args, added, done⟩ := bind_eq_ok_iff.mp combined
  cases done
  exact ⟨args, added, rfl⟩

theorem combined_distinct
    (combined : argsCombine call.tools call.safe call.options call.argsList = .ok argsNew) :
    (argsNew.map Prod.fst).Nodup := by
  obtain ⟨args, added, rfl⟩ := exists_of_combined combined
  have empty : (([] : List (String × PyVal)).map Prod.fst).Nodup := List.nodup_nil
  exact foldl_colours_distinct (fun colour =>
    if call.options.ignoreColors = true then "" else colour)
    (foldlM_addArg_distinct empty added)

theorem lookup_combined
    (combined : argsCombine call.tools call.safe call.options call.argsList = .ok argsNew) :
    ∃ args, call.argsList.flatten.foldlM (addArg call.tools call.safe call.options) [] =
        .ok args ∧
      ∀ name, argsNew.lookup name = ((call.colour name).map PyVal.str).or (args.lookup name) := by
  obtain ⟨args, added, rfl⟩ := exists_of_combined combined
  refine ⟨args, added, ?_⟩
  intro name
  have found := lookup_foldl_colours (fun colour =>
    if call.options.ignoreColors = true then "" else colour) call.tools.distinct args name
  rw [found, colour, Option.map_map]
  rfl

theorem valueIn_texts (argsNew : List (String × PyVal)) (field : List Char) :
    valueIn (call.texts argsNew) field =
      (argsNew.lookup (String.ofList field)).map (fun val => (strOf call.tools val).toList) := by
  induction argsNew with
  | nil => rfl
  | cons arg argsNew induction =>
      obtain ⟨name, val⟩ := arg
      rw [valueIn, texts, List.map_cons, List.lookup_cons, List.lookup_cons]
      by_cases same : String.ofList field = name
      · have sameChars : field = name.toList := by rw [← same, String.toList_ofList]
        rw [beq_iff_eq.mpr same, beq_iff_eq.mpr sameChars]
        rfl
      · have differentChars : field ≠ name.toList := by
          intro equal
          exact same (by rw [equal, String.ofList_toList])
        rw [beq_eq_false_iff_ne.mpr same, beq_eq_false_iff_ne.mpr differentChars]
        exact induction

/-- A used value is the claimed one. -/
theorem valueIn_eq_claimed
    (combined : argsCombine call.tools call.safe call.options call.argsList = .ok argsNew)
    {field : List Char} (used : call.Used field) (formatted : String → List Char → String) :
    valueIn (call.texts argsNew) field = call.claimed formatted field := by
  obtain ⟨args, added, lookup⟩ := lookup_combined combined
  rw [valueIn_texts, lookup, claimed, named]
  rw [Used] at used
  cases given : call.given (String.ofList field) with
  | some val =>
      simp only [given] at used
      obtain ⟨⟨kept, processed, truthy⟩, noColour⟩ := used
      rw [noColour, foldlM_addArg_first added rfl given processed truthy]
      simp [textForm, processed]
  | none =>
      simp only [given] at used
      have absent : args.lookup (String.ofList field) = none :=
        foldlM_addArg_lookup added (.inl given)
      rw [absent]
      cases isColour : call.colour (String.ofList field) with
      | some colour => simp [strOf]
      | none =>
          rw [isColour] at used
          rcases used with colour | plain | unknown
          · cases colour
          · simp [plain]
          · simp [unknown]

/-- With names for all arguments the fallback replaces one after the other. -/
theorem foldlM_replace (named : ∀ arg ∈ argsNew, arg.1 ≠ "") (line : List Char) :
    argsNew.foldlM (fun line arg => do
        ensure (arg.1 ≠ "") Exn.assertionError
        return Lines.replace ('{' :: arg.1.toList ++ ['}']) (strOf call.tools arg.2).toList 0
          line) line =
      .ok ((call.texts argsNew).foldl
        (fun text entry => Lines.replace (placeholder '{' '}' entry.1) entry.2 0 text) line) := by
  induction argsNew generalizing line with
  | nil => rfl
  | cons arg argsNew induction =>
      obtain ⟨first, others⟩ := List.forall_mem_cons.mp named
      rw [List.foldlM_cons, texts, List.map_cons, List.foldl_cons]
      refine bind_eq_ok_iff.mpr ⟨_, ?_, induction others _⟩
      rw [ensure, if_pos first]
      rfl

/-- A sound line is filled. -/
theorem SoundLine.processLine {line : List Char} (sound : call.SoundLine line)
    (brace : '{' ∈ line) (formatted : String → List Char → String) :
    processLine call.tools call.safe call.options call.argsList line =
      .ok (filled '{' '}' (call.claimed formatted) line) := by
  obtain ⟨argsNew, combined, named, settled⟩ := sound.combined
  have distinct : ((call.texts argsNew).map Prod.fst).Nodup := by
    have names := combined_distinct combined
    rw [texts, List.map_map]
    have chars := names.map (f := String.toList) (fun _ _ => String.toList_inj.mp)
    rw [List.map_map] at chars
    exact chars
  have filling := foldl_replace distinct settled
  have same : filled '{' '}' (valueIn (call.texts argsNew)) line =
      filled '{' '}' (call.claimed formatted) line :=
    filled_congr (fun field member => valueIn_eq_claimed combined (sound.used field member) _)
  rw [TextTools.processLine, if_neg (not_not.mpr brace)]
  simp only [sound.braces, ne_eq, not_true_eq_false, if_false, formatter]
  refine bind_eq_ok_iff.mpr ⟨_, combined, ?_⟩
  rw [foldlM_replace named, filling, same]

/-- A text without an opening brace has no placeholders. -/
theorem filled_of_not_mem {line : List Char} (absent : '{' ∉ line)
    (value : List Char → Option (List Char)) : filled '{' '}' value line = line := by
  induction line with
  | nil => rfl
  | cons char line induction =>
      rw [List.mem_cons, not_or] at absent
      rw [filled, pieces, piecesFrom, if_neg (Ne.symm absent.1), List.flatMap_cons]
      exact congrArg (char :: ·) (induction absent.2)

/-- A sound text is filled line by line. -/
theorem exact_of_sound {content : String} (sound : call.Sound content)
    (formatted : String → List Char → String) : call.Exact formatted content := by
  have each : ∀ line ∈ PyText.splitChars '\n' content.toList,
      (if '{' ∈ line then TextTools.processLine call.tools call.safe call.options call.argsList line
        else .ok line) = .ok (filled '{' '}' (call.claimed formatted) line) := by
    intro line member
    by_cases brace : '{' ∈ line
    · rw [if_pos brace]
      exact (sound.lines line member brace).processLine brace formatted
    · rw [if_neg brace, filled_of_not_mem brace]
  have all : (PyText.splitChars '\n' content.toList).mapM (fun line =>
      if '{' ∈ line then TextTools.processLine call.tools call.safe call.options call.argsList line
      else .ok line) =
        .ok ((PyText.splitChars '\n' content.toList).map
          (filled '{' '}' (call.claimed formatted))) := by
    generalize PyText.splitChars '\n' content.toList = lines at each
    induction lines with
    | nil => rfl
    | cons line lines induction =>
        obtain ⟨first, others⟩ := List.forall_mem_cons.mp each
        rw [List.mapM_cons]
        exact bind_eq_ok_iff.mpr ⟨_, first, bind_eq_ok_iff.mpr ⟨_, induction others, rfl⟩⟩
  rw [Exact, argsReplace, argsReplaceWith, if_neg sound.some]
  by_cases empty : content = ""
  · rw [if_pos empty, empty]
    rfl
  · rw [if_neg empty]
    exact bind_eq_ok_iff.mpr ⟨_, all, rfl⟩

/-- A line with a brace needs all the arguments, and names for them. -/
theorem combined_of_processLine {line result : List Char} (brace : '{' ∈ line)
    (processed : TextTools.processLine call.tools call.safe call.options call.argsList line =
      .ok result) :
    ∃ argsNew, argsCombine call.tools call.safe call.options call.argsList = .ok argsNew ∧
      ∀ arg ∈ argsNew, arg.1 ≠ "" := by
  rw [TextTools.processLine, if_neg (not_not.mpr brace)] at processed
  simp only [formatter] at processed
  obtain ⟨argsNew, combined, replaced⟩ := bind_eq_ok_iff.mp processed
  refine ⟨argsNew, combined, ?_⟩
  revert replaced
  generalize (if occurrences "{}".toList line ≠ 0 then
    Lines.replace "{}".toList ">>EMPTYDICT<<".toList 0 line else line) = text
  clear combined
  intro replaced
  induction argsNew generalizing text with
  | nil =>
      intro arg member
      cases member
  | cons arg argsNew induction =>
      rw [List.foldlM_cons] at replaced
      obtain ⟨between, first, later⟩ := bind_eq_ok_iff.mp replaced
      obtain ⟨_, named, _⟩ := bind_eq_ok_iff.mp first
      rw [ensure_eq_ok_iff] at named
      exact List.forall_mem_cons.mpr ⟨named, induction between later⟩

end Replacement

/-- Tools with one colour, whose numbers are written as digits. -/
def redTools : Tools where
  MYCOLORS := [("RED", "*")]
  distinct := by decide
  config := []
  serializer _ := ""
  str
    | .int val => toString val
    | _ => ""

/-- A greeting of a name in one dict, before another dict with the same name. -/
def greeting : Replacement :=
  ⟨redTools, 1, ⟨false, false, false⟩, [[("name", .str "you")], [("name", .str "me")]]⟩

end JumpscaleX.TextTools
