import JumpscaleX.DictMerge
import JumpscaleX.Library.Stateful

/-!
# Runs of a merge

What `merge` leaves of the objects and dicts that there were, also when it raises, and what
the dict that it returns has of its template.
-/

namespace JumpscaleX.DictMerge

open Stateful

/-! ## The memory -/

/-- The values of the dicts are objects of the memory. -/
def Memory.Valid (memory : Memory) : Prop :=
  ∀ dict ∈ memory.dicts, ∀ key value, dict.get key = some value → value < memory.objects.length

/-- The objects and the other dicts stay as they are, and errors are only added. -/
structure Kept (number : Nat) (memory reached : Memory) : Prop where
  objects : memory.objects <+: reached.objects
  length : reached.dicts.length = memory.dicts.length
  others : ∀ other, other ≠ number → reached.dicts[other]? = memory.dicts[other]?
  errors : memory.errors <+: reached.errors

section

variable {number : Nat} {memory between reached : Memory} {key : String} {val : Nat}

theorem Kept.refl (memory : Memory) : Kept number memory memory :=
  ⟨List.prefix_rfl, rfl, fun _ _ => rfl, List.prefix_rfl⟩

theorem Kept.trans (first : Kept number memory between) (second : Kept number between reached) :
    Kept number memory reached where
  objects := first.objects.trans second.objects
  length := second.length.trans first.length
  others := fun other apart => (second.others other apart).trans (first.others other apart)
  errors := first.errors.trans second.errors

theorem Kept.assign : Kept number memory (memory.assign number key val) where
  objects := List.prefix_rfl
  length := List.length_modify _ _ _
  others := by
    intro other apart
    exact List.getElem?_modify_ne _ _ (Ne.symm apart)
  errors := List.prefix_rfl

theorem Kept.addError : Kept number memory (memory.addError key val) where
  objects := List.prefix_rfl
  length := rfl
  others := fun _ _ => rfl
  errors := List.prefix_append _ _

theorem Kept.store (stored : Stored) : Kept number memory (memory.store number key val stored) := by
  cases stored with
  | same => exact .assign
  | fresh content =>
      have assigned : Kept number memory (memory.assign number key memory.objects.length) := .assign
      exact ⟨List.prefix_append _ _, assigned.length, assigned.others, assigned.errors⟩

/-- An object that there is stays. -/
theorem Kept.object_eq (kept : Kept number memory reached) {value : Nat}
    (known : value < memory.objects.length) : reached.object value = memory.object value := by
  obtain ⟨later, whole⟩ := kept.objects
  rw [Memory.object, Memory.object, ← whole, List.getD_eq_getElem?_getD,
    List.getD_eq_getElem?_getD, List.getElem?_append_left known]

theorem dict_assign (there : number < memory.dicts.length) (other : String) :
    ((memory.assign number key val).dict number).get other =
      if other = key then some val else (memory.dict number).get other := by
  have assigned : (memory.assign number key val).dict number =
      (memory.dict number).put key val := by
    rw [Memory.dict, Memory.dict, Memory.assign, List.getD_eq_getElem?_getD,
      List.getD_eq_getElem?_getD, List.getElem?_modify_eq, List.getElem?_eq_getElem there]
    rfl
  rw [assigned, Dict.get_put]

/-- The object that a key has got. -/
def Stored.objectNumber (memory : Memory) (val : Nat) : Stored → Nat
  | .same => val
  | .fresh _ => memory.objects.length

theorem dict_store (there : number < memory.dicts.length) (stored : Stored) (other : String) :
    ((memory.store number key val stored).dict number).get other =
      if other = key then some (stored.objectNumber memory val)
      else (memory.dict number).get other := by
  cases stored with
  | same => exact dict_assign there other
  | fresh content => exact dict_assign there other

theorem object_store (stored : Stored) :
    (memory.store number key val stored).object (stored.objectNumber memory val) =
      stored.content (memory.object val) := by
  cases stored with
  | same => rfl
  | fresh content =>
      show (memory.objects ++ [content]).getD memory.objects.length .none = content
      rw [List.getD_eq_getElem?_getD, List.getElem?_concat_length]
      rfl

theorem Memory.Valid.assign (valid : memory.Valid) (known : val < memory.objects.length) :
    (memory.assign number key val).Valid := by
  intro dict member other value found
  obtain ⟨position, there, isDict⟩ := List.mem_iff_getElem.mp member
  by_cases here : position = number
  · subst here
    have changed : dict.get other =
        if other = key then some val else (memory.dict position).get other := by
      have whole : position < memory.dicts.length := by
        rwa [Kept.assign.length] at there
      rw [← dict_assign whole other, Memory.dict, List.getD_eq_getElem?_getD,
        List.getElem?_eq_getElem there, isDict]
      rfl
    rw [changed] at found
    split at found
    · rw [← Option.some.inj found]
      exact known
    · have inside : memory.dict position ∈ memory.dicts ∨ memory.dict position = .empty := by
        rw [Memory.dict, List.getD_eq_getElem?_getD]
        cases old : memory.dicts[position]? with
        | none => exact .inr rfl
        | some dict => exact .inl (List.mem_of_getElem? old)
      rcases inside with isThere | empty
      · exact valid _ isThere other value found
      · rw [empty, Dict.get_empty] at found
        exact absurd found (by simp)
  · have same : memory.dicts[position]? = some dict := by
      rw [← (Kept.assign : Kept number memory _).others position here,
        List.getElem?_eq_getElem there, isDict]
    exact valid dict (List.mem_of_getElem? same) other value found

/-- New objects at the end. -/
theorem Memory.Valid.grow (valid : memory.Valid) (objects : List Content)
    (grown : memory.objects.length ≤ objects.length) :
    ({ memory with objects := objects } : Memory).Valid :=
  fun dict member key value found => lt_of_lt_of_le (valid dict member key value found) grown

theorem Memory.Valid.store (valid : memory.Valid) (known : val < memory.objects.length)
    (stored : Stored) : (memory.store number key val stored).Valid := by
  cases stored with
  | same => exact valid.assign known
  | fresh content =>
      have grown : ({ memory with objects := memory.objects ++ [content] } : Memory).Valid := by
        apply valid.grow
        rw [List.length_append]
        exact Nat.le_add_right _ _
      exact grown.assign (by rw [List.length_append]; exact Nat.lt_succ_self _)

end

/-! ## The types of the values -/

theorem kind_toList {options : Options} {val : Content} {stored : Stored}
    (done : toList options val = .ok stored) (typed : kind? val ≠ none) :
    kind? (stored.content val) = some .list := by
  rw [toList] at done
  split at done
  · obtain ⟨items, _, rest⟩ := Fallible.bind_eq_ok_iff.mp done
    obtain ⟨res, _, isRes⟩ := Fallible.bind_eq_ok_iff.mp rest
    rw [← Except.ok.inj isRes]
    rfl
  · rw [← Except.ok.inj done]
    cases val with
    | none => exact absurd rfl typed
    | dict entries => exact absurd rfl typed
    | bool value => rfl
    | int value => rfl
    | float value => rfl
    | str text => rfl
    | list items => rfl
    | tuple items => rfl

/-- A value that is of a type itself becomes one of the type that it is converted to. -/
theorem kind_converted {round : Rat → PyFloat} {options : Options} {key : String} {kind : Kind}
    {val : Content} {stored : Stored} (done : converted round options key kind val = .ok stored)
    (typed : kind? val ≠ none) : kind? (stored.content val) = some kind := by
  cases kind with
  | list => exact kind_toList done typed
  | bool =>
      rw [← Except.ok.inj done]
      rfl
  | int =>
      rw [converted] at done
      cases whole : toInt key val with
      | error problem =>
          rw [whole] at done
          cases done
      | ok value =>
          rw [whole] at done
          rw [← Except.ok.inj done]
          rfl
  | float =>
      rw [converted] at done
      cases whole : toFloat round key val with
      | error problem =>
          rw [whole] at done
          cases done
      | ok value =>
          rw [whole] at done
          rw [← Except.ok.inj done]
          rfl
  | string =>
      rw [converted] at done
      cases whole : toStr key val with
      | error problem =>
          rw [whole] at done
          cases done
      | ok value =>
          rw [whole] at done
          rw [← Except.ok.inj done]
          rfl

/-! ## One value -/

section

variable {round : Rat → PyFloat} {options : Options} {number : Nat} {memory reached : Memory}
  {key : String} {val : Nat}

/-- What `set_value` can do. -/
inductive Sets (round : Rat → PyFloat) (options : Options) (number : Nat) (key : String)
    (val : Nat) (memory : Memory) : Memory → Prop where
  | added (absent : (memory.dict number).get key = none) (allowed : options.addNonExist = true) :
      Sets round options number key val memory (memory.assign number key val)
  | missed (absent : (memory.dict number).get key = none) (refused : options.addNonExist = false)
      (lenient : options.die = false) :
      Sets round options number key val memory (memory.addError key val)
  | changed (template : Nat) (kind : Kind) (stored : Stored)
      (present : (memory.dict number).get key = some template)
      (isKind : kind? (memory.object template) = some kind)
      (done : converted round options key kind (memory.object val) = .ok stored) :
      Sets round options number key val memory (memory.store number key val stored)

theorem sets_of_setValue {value : PUnit}
    (done : setValue round options number key val memory = .ok value reached) :
    Sets round options number key val memory reached := by
  rw [setValue, get_seq] at done
  cases found : (memory.dict number).get key with
  | none =>
      rw [found] at done
      simp only at done
      split at done
      · rename_i allowed
        rw [← modify_eq_ok_iff.mp done]
        exact .added found allowed
      · rename_i refused
        split at done
        · exact absurd done throw_ne_ok
        · rename_i lenient
          rw [← modify_eq_ok_iff.mp done]
          exact .missed found (Bool.not_eq_true _ ▸ refused) (Bool.not_eq_true _ ▸ lenient)
  | some template =>
      cases isKind : kind? (memory.object template) with
      | none =>
          simp only [found, isKind] at done
          exact absurd done throw_ne_ok
      | some kind =>
          simp only [found, isKind] at done
          cases conversion : converted round options key kind (memory.object val) with
          | error problem =>
              rw [conversion, attempt_seq_of_error rfl] at done
              cases done
          | ok stored =>
              rw [conversion, attempt_seq_of_ok rfl] at done
              rw [← modify_eq_ok_iff.mp done]
              exact .changed template kind stored found isKind conversion

theorem Sets.kept (sets : Sets round options number key val memory reached) :
    Kept number memory reached := by
  cases sets with
  | added _ _ => exact .assign
  | missed _ _ _ => exact .addError
  | changed _ _ stored _ _ _ => exact .store stored

theorem Sets.valid (sets : Sets round options number key val memory reached)
    (valid : memory.Valid) (known : val < memory.objects.length) : reached.Valid := by
  cases sets with
  | added _ _ => exact valid.assign known
  | missed _ _ _ => exact valid
  | changed _ _ stored _ _ _ => exact valid.store known stored

theorem Sets.errors_eq (sets : Sets round options number key val memory reached)
    (strict : options.die = true ∨ options.addNonExist = true) :
    reached.errors = memory.errors := by
  cases sets with
  | added _ _ => rfl
  | missed _ refused lenient =>
      rw [refused, lenient] at strict
      exact absurd strict (by simp)
  | changed _ _ stored _ _ _ =>
      cases stored with
      | same => rfl
      | fresh content => rfl

/-- `set_value` changes the memory only when it returns. -/
theorem setValue_keeps {property : Memory → Prop}
    (stays : ∀ memory reached, Sets round options number key val memory reached →
      property memory → property reached) :
    Keeps property (setValue round options number key val) := by
  intro memory holds
  cases outcome : setValue round options number key val memory with
  | ok value reached =>
      rw [final_of_ok outcome]
      exact stays memory reached (sets_of_setValue outcome) holds
  | error problem reached =>
      rw [final_of_error outcome]
      have same : reached = memory := by
        rw [setValue, get_seq] at outcome
        cases found : (memory.dict number).get key with
        | none =>
            simp only [found] at outcome
            split at outcome
            · exact absurd outcome modify_ne_error
            · split at outcome
              · exact (throw_eq_error_iff.mp outcome).2.symm
              · exact absurd outcome modify_ne_error
        | some template =>
            cases isKind : kind? (memory.object template) with
            | none =>
                simp only [found, isKind] at outcome
                exact (throw_eq_error_iff.mp outcome).2.symm
            | some kind =>
                simp only [found, isKind] at outcome
                cases conversion : converted round options key kind (memory.object val) with
                | error problem =>
                    rw [conversion, attempt_seq_of_error rfl] at outcome
                    injection outcome with _ same
                    exact same.symm
                | ok stored =>
                    rw [conversion, attempt_seq_of_ok rfl] at outcome
                    exact absurd outcome modify_ne_error
      rw [same]
      exact holds

end

/-! ## The loop -/

/-- A value for a key that is not in the template, and is not to be added. -/
def missing (options : Options) (template : Dict String Nat) (item : String × Nat) : Bool :=
  !options.addNonExist && (template.get (options.target item.1)).isNone

/-- What there is behind the values that were merged so far. -/
structure Merged (options : Options) (memory : Memory) (template : Dict String Nat)
    (merged : List (String × Nat)) (reached : Memory) : Prop where
  kept : Kept memory.dicts.length (memory.copy template) reached
  valid : reached.Valid
  present : ∀ key, (reached.dict memory.dicts.length).get key ≠ none ↔
    template.get key ≠ none ∨
      (options.addNonExist = true ∧ ∃ item ∈ merged, options.target item.1 = key)
  untouched : ∀ key, (∀ item ∈ merged, options.target item.1 ≠ key) →
    (reached.dict memory.dicts.length).get key = template.get key
  typed : ∀ key old kind, template.get key = some old →
    kind? (memory.object old) = some kind →
      (∀ item ∈ merged, options.target item.1 = key → kind? (memory.object item.2) ≠ none) →
        ∃ new, (reached.dict memory.dicts.length).get key = some new ∧
          kind? (reached.object new) = some kind
  errors : reached.errors = memory.errors ++
    (merged.filter (missing options template)).map
      (fun item => (options.target item.1, item.2))

section

variable {round : Rat → PyFloat} {options : Options} {memory state reached : Memory}
  {template : Dict String Nat} {front : List (String × Nat)} {item : String × Nat}

theorem Merged.there (merged : Merged options memory template front state) :
    memory.dicts.length < state.dicts.length := by
  rw [merged.kept.length, Memory.copy, List.length_append]
  exact Nat.lt_succ_self _

theorem Merged.initial (valid : memory.Valid)
    (known : ∀ key value, template.get key = some value → value < memory.objects.length) :
    Merged options memory template [] (memory.copy template) := by
  have isTemplate : (memory.copy template).dict memory.dicts.length = template := by
    rw [Memory.dict, Memory.copy, List.getD_eq_getElem?_getD, List.getElem?_concat_length]
    rfl
  refine ⟨.refl _, ?_, ?_, ?_, ?_, ?_⟩
  · intro dict member key value found
    rcases List.mem_append.mp member with old | new
    · exact valid dict old key value found
    · rw [List.mem_singleton.mp new] at found
      exact known key value found
  · intro key
    rw [isTemplate]
    simp
  · intro key _
    rw [isTemplate]
  · intro key old kind found isKind _
    exact ⟨old, by rw [isTemplate]; exact found, isKind⟩
  · simp [Memory.copy]

/-- One value more. -/
theorem Merged.step (merged : Merged options memory template front state)
    (known : item.2 < memory.objects.length)
    (sets : Sets round options memory.dicts.length (options.target item.1) item.2 state reached) :
    Merged options memory template (front ++ [item]) reached := by
  have there := merged.there
  have earlier : memory.objects.length ≤ state.objects.length := merged.kept.objects.length_le
  have sameValue : state.object item.2 = memory.object item.2 := merged.kept.object_eq known
  -- What is in the dict is told by the keys, also of those that were added.
  have gets : ∀ key, key ≠ options.target item.1 →
      (reached.dict memory.dicts.length).get key = (state.dict memory.dicts.length).get key := by
    intro key apart
    cases sets with
    | added _ _ => rw [dict_assign there, if_neg apart]
    | missed _ _ _ => rfl
    | changed _ _ stored _ _ _ => rw [dict_store there, if_neg apart]
  refine ⟨merged.kept.trans sets.kept,
    sets.valid merged.valid (lt_of_lt_of_le known earlier), ?_, ?_, ?_, ?_⟩
  case refine_1 =>
    intro key
    by_cases here : key = options.target item.1
    · subst here
      cases sets with
      | added _ allowed =>
          rw [dict_assign there, if_pos rfl]
          simp [allowed]
      | missed absent refused _ =>
          have old := not_congr (merged.present (options.target item.1))
          rw [refused] at old ⊢
          show (state.dict memory.dicts.length).get _ ≠ none ↔ _
          simpa [absent] using old
      | changed old kind stored found _ _ =>
          rw [dict_store there, if_pos rfl]
          have before' := (merged.present (options.target item.1)).mp (by rw [found]; simp)
          refine iff_of_true (by simp) ?_
          rcases before' with inTemplate | ⟨allowed, other, member, same⟩
          · exact .inl inTemplate
          · exact .inr ⟨allowed, other, List.mem_append_left _ member, same⟩
    · rw [gets key here, merged.present key]
      apply or_congr_right
      apply and_congr_right
      intro _
      constructor
      · rintro ⟨other, member, same⟩
        exact ⟨other, List.mem_append_left _ member, same⟩
      · rintro ⟨other, member, same⟩
        rcases List.mem_append.mp member with inFront | last
        · exact ⟨other, inFront, same⟩
        · rw [List.mem_singleton.mp last] at same
          exact absurd same.symm here
  case refine_2 =>
    intro key apart
    have last := apart item (List.mem_append_right _ (List.mem_singleton.mpr rfl))
    rw [gets key (Ne.symm last)]
    exact merged.untouched key (fun other member => apart other (List.mem_append_left _ member))
  case refine_3 =>
    intro key old kind found isKind typed
    obtain ⟨new, isNew, newKind⟩ := merged.typed key old kind found isKind
      (fun other member => typed other (List.mem_append_left _ member))
    by_cases here : key = options.target item.1
    · have itemTyped := typed item (List.mem_append_right _ (List.mem_singleton.mpr rfl)) here.symm
      rw [← sameValue] at itemTyped
      rw [here] at isNew ⊢
      cases sets with
      | added absent _ => rw [absent] at isNew; cases isNew
      | missed absent _ _ => rw [absent] at isNew; cases isNew
      | changed old' kind' stored found' isKind' done =>
          have sameOld : old' = new := Option.some.inj (found'.symm.trans isNew)
          rw [sameOld] at isKind'
          have sameKind : kind' = kind := Option.some.inj (isKind'.symm.trans newKind)
          refine ⟨stored.objectNumber state item.2, ?_, ?_⟩
          · rw [dict_store there, if_pos rfl]
          · rw [object_store, ← sameKind]
            exact kind_converted done itemTyped
    · refine ⟨new, by rw [gets key here]; exact isNew, ?_⟩
      have inside : state.dict memory.dicts.length ∈ state.dicts := by
        rw [Memory.dict, List.getD_eq_getElem?_getD, List.getElem?_eq_getElem there]
        exact List.getElem_mem there
      rw [sets.kept.object_eq (merged.valid _ inside key new isNew)]
      exact newKind
  case refine_4 =>
    rw [List.filter_append, List.map_append, ← List.append_assoc, ← merged.errors]
    cases sets with
    | added _ allowed =>
        have notMissing : missing options template item = false := by simp [missing, allowed]
        simp [notMissing, Memory.assign]
    | missed absent refused _ =>
        have notThere : template.get (options.target item.1) = none := by
          by_contra inTemplate
          exact (merged.present _).mpr (.inl inTemplate) absent
        have isMissing : missing options template item = true := by
          simp [missing, refused, notThere]
        simp [isMissing, Memory.addError]
    | changed old kind stored found _ _ =>
        have notMissing : missing options template item = false := by
          rcases (merged.present _).mp (by rw [found]; simp) with inTemplate | ⟨allowed, _⟩
          · simp [missing, Option.ne_none_iff_isSome.mp inTemplate]
          · simp [missing, allowed]
        cases stored with
        | same => simp [notMissing, Memory.store, Memory.assign]
        | fresh content => simp [notMissing, Memory.store, Memory.assignNew, Memory.assign]

end

/-! ## A merge -/

theorem mem_sortedItems {updates : Dict String Nat} {item : String × Nat} :
    item ∈ sortedItems updates ↔ updates.get item.1 = some item.2 := by
  rw [sortedItems, List.mem_insertionSort, Dict.get_eq_some_iff]

/-- What a merge leaves of the memory, whether it returns or raises. -/
structure Grown (options : Options) (memory reached : Memory) : Prop where
  objects : memory.objects <+: reached.objects
  dicts : memory.dicts <+: reached.dicts
  errors : memory.errors <+: reached.errors
  strict : options.die = true ∨ options.addNonExist = true → reached.errors = memory.errors
  valid : reached.Valid

section

variable {round : Rat → PyFloat} {options : Options} {memory reached : Memory}
  {source update : Nat} {template updates : Dict String Nat}

theorem dicts_of_kept (kept : Kept memory.dicts.length (memory.copy template) reached) :
    memory.dicts <+: reached.dicts := by
  rw [List.prefix_iff_getElem?]
  intro position there
  have apart : position ≠ memory.dicts.length := Nat.ne_of_lt there
  rw [kept.others position apart, Memory.copy, List.getElem?_append_left there,
    List.getElem?_eq_getElem there]

theorem merge_eq (isTemplate : memory.dicts[source]? = some template)
    (isUpdate : memory.dicts[update]? = some updates) :
    merge round options source update memory =
      ((sortedItems updates).forM (fun item =>
          setValue round options memory.dicts.length (options.target item.1) item.2) >>= fun _ =>
        getThe Memory >>= fun reached => pure (memory.dicts.length, reached.errors) :
          EStateM MergeError Memory _) (memory.copy template) := by
  rw [merge, get_seq]
  simp only [isTemplate, isUpdate]
  rw [modify_seq]

theorem value_lt (valid : memory.Valid) {number : Nat} {dict : Dict String Nat}
    (isDict : memory.dicts[number]? = some dict) {key : String} {value : Nat}
    (found : dict.get key = some value) : value < memory.objects.length :=
  valid dict (List.mem_of_getElem? isDict) key value found

theorem merge_grown (valid : memory.Valid) (isTemplate : memory.dicts[source]? = some template)
    (isUpdate : memory.dicts[update]? = some updates) :
    Grown options memory (final (merge round options source update) memory) := by
  let Loop (reached : Memory) : Prop :=
    Kept memory.dicts.length (memory.copy template) reached ∧ reached.Valid ∧
      (options.die = true ∨ options.addNonExist = true → reached.errors = memory.errors)
  have keeps : Keeps Loop ((sortedItems updates).forM (fun item =>
      setValue round options memory.dicts.length (options.target item.1) item.2) >>= fun _ =>
        getThe Memory >>= fun reached => pure (memory.dicts.length, reached.errors)) := by
    refine .bind (.forM ?_) (fun _ => .bind .get (fun _ => .pure _))
    intro item member
    apply setValue_keeps
    rintro state reached sets ⟨kept, stateValid, same⟩
    have known : item.2 < state.objects.length :=
      lt_of_lt_of_le (value_lt valid isUpdate (mem_sortedItems.mp member)) kept.objects.length_le
    refine ⟨kept.trans sets.kept, sets.valid stateValid known, ?_⟩
    intro strict
    rw [sets.errors_eq strict, same strict]
  have initial : Merged options memory template [] (memory.copy template) := .initial valid
    (fun key value found => value_lt valid isTemplate found)
  have reached := keeps (memory.copy template) ⟨initial.kept, initial.valid, fun _ => rfl⟩
  have isFinal : final (merge round options source update) memory =
      final ((sortedItems updates).forM (fun item =>
        setValue round options memory.dicts.length (options.target item.1) item.2) >>= fun _ =>
          getThe Memory >>= fun reached => pure (memory.dicts.length, reached.errors))
        (memory.copy template) := by
    rw [final, final, merge_eq isTemplate isUpdate]
  rw [isFinal]
  exact ⟨reached.1.objects, dicts_of_kept reached.1, reached.1.errors, reached.2.2, reached.2.1⟩

theorem merged_of_merge (valid : memory.Valid)
    (isTemplate : memory.dicts[source]? = some template)
    (isUpdate : memory.dicts[update]? = some updates) {result : Nat}
    {errors : List (String × Nat)}
    (done : merge round options source update memory = .ok (result, errors) reached) :
    result = memory.dicts.length ∧ errors = reached.errors ∧
      Merged options memory template (sortedItems updates) reached := by
  rw [merge_eq isTemplate isUpdate] at done
  obtain ⟨_, between, ran, rest⟩ := seq_eq_ok_iff.mp done
  rw [get_seq] at rest
  obtain ⟨same, here⟩ := return_eq_ok_iff.mp rest
  rw [← here]
  refine ⟨(congrArg Prod.fst same).symm, (congrArg Prod.snd same).symm, ?_⟩
  refine forM_trace (fun front state => Merged options memory template front state) ?_ ?_ ran
  · intro front item back state after value split merged did
    have member : item ∈ sortedItems updates := by
      rw [split]
      exact List.mem_append_right _ List.mem_cons_self
    exact merged.step (value_lt valid isUpdate (mem_sortedItems.mp member)) (sets_of_setValue did)
  · exact Merged.initial valid (fun key value found => value_lt valid isTemplate found)

end

variable (round : Rat → PyFloat) (options : Options)

/-- A template with a number, and an update with a text for it and a key of its own. -/
def smallMemory : Memory where
  objects := [.int 1, .str "2", .str "x"]
  dicts := [⟨[("a", 0)], by decide⟩, ⟨[("a", 1), ("b", 2)], by decide⟩]
  errors := []

theorem smallMemory_valid : smallMemory.Valid := by
  have entries : ∀ dict ∈ smallMemory.dicts, ∀ entry ∈ dict.entries,
      entry.2 < smallMemory.objects.length := by decide
  intro dict member key value found
  exact entries dict member (key, value) (Dict.get_eq_some_iff.mp found)

/-- The text becomes a number, and the other key an error. -/
example : ∃ reached, merge .finite { die := false } 0 1 smallMemory =
    .ok (2, [("b", 2)]) reached ∧ reached.objects = smallMemory.objects ++ [.int 2] :=
  ⟨_, rfl, rfl⟩

end JumpscaleX.DictMerge
