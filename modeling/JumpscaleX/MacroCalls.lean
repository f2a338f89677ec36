import JumpscaleX.MacroPieces

/-!
# When the arguments of a macro come out

The keywords that are evaluated, and the calls whose arguments come out as they are given.
-/

namespace JumpscaleX.MacroArgs

open Fallible Profiles
open PyText (splitChars)

section

variable {ε V : Type} {python : Python ε V}

/-! ## Keywords -/

/-- What `eval` is given of the literal of a keyword. -/
def post (cut : Text) : Text :=
  (cut.takeWhile (· ≠ ',')).rdropWhile HostFile.isspace

theorem comma_cases (cut : Text) :
    (',' ∉ cut ∧ cut.takeWhile (· ≠ ',') = cut) ∨
      ∃ back, cut = cut.takeWhile (· ≠ ',') ++ ',' :: back := by
  induction cut with
  | nil => exact .inl ⟨List.not_mem_nil, rfl⟩
  | cons char cut induction =>
      by_cases isComma : char = ','
      · right
        rw [isComma]
        exact ⟨cut, rfl⟩
      · rw [List.takeWhile_cons_of_pos (by simpa using isComma)]
        rcases induction with ⟨absent, whole⟩ | ⟨back, isCut⟩
        · left
          rw [List.mem_cons, not_or, whole]
          exact ⟨⟨Ne.symm isComma, absent⟩, rfl⟩
        · right
          refine ⟨back, ?_⟩
          rw [List.cons_append, ← isCut]

theorem not_comma_takeWhile (cut : Text) : ',' ∉ cut.takeWhile (· ≠ ',') := by
  intro member
  have differs := List.mem_takeWhile_imp member
  simp at differs

theorem IsWord.head {key : Text} (isKey : IsWord key) :
    ∃ first rest, key = first :: rest ∧ HostFile.isspace first = false := by
  cases key with
  | nil => exact absurd rfl isKey.1
  | cons first rest => exact ⟨first, rest, rfl, (isKey.2 first List.mem_cons_self).1⟩

theorem strip_keyword {key : Text} (isKey : IsWord key) (literal : Text) :
    strip (key ++ '=' :: literal) = key ++ '=' :: literal.rdropWhile HostFile.isspace := by
  obtain ⟨first, rest, isFirst, noSpace⟩ := isKey.head
  have whole : strip (key ++ '=' :: literal) =
      (key ++ '=' :: literal).rdropWhile HostFile.isspace := by
    rw [isFirst, List.cons_append]
    exact strip_of_head noSpace _
  rw [whole, rdropWhile_append ⟨'=', List.mem_cons_self, by decide⟩, rdropWhile_cons (by decide)]

/-- The first piece of a keyword is one that is evaluated. -/
theorem post_mem_kwargsOf {key : Text} (isKey : IsWord key) (cut : Text) :
    key ++ '=' :: post cut ∈ kwargsOf (key ++ '=' :: cut) := by
  have noComma : ',' ∉ key ++ '=' :: cut.takeWhile (· ≠ ',') := by
    rw [List.mem_append, List.mem_cons, not_or, not_or]
    exact ⟨isKey.not_mem (by decide), by decide, not_comma_takeWhile cut⟩
  have isPiece : key ++ '=' :: cut.takeWhile (· ≠ ',') ∈ splitChars ',' (key ++ '=' :: cut) := by
    rcases comma_cases cut with ⟨absent, whole⟩ | ⟨back, isCut⟩
    · rw [whole] at noComma ⊢
      rw [VFS.splitChars_of_not_mem noComma]
      exact List.mem_singleton_self _
    · have whole : key ++ '=' :: cut = (key ++ '=' :: cut.takeWhile (· ≠ ',')) ++ ',' :: back := by
        rw [List.append_assoc, List.cons_append, ← isCut]
      rw [whole, VFS.splitChars_append back noComma]
      exact List.mem_cons_self
  rw [kwargsOf]
  refine List.mem_map.mpr ⟨_, List.mem_filter.mpr ⟨isPiece, by simp⟩, ?_⟩
  rw [strip_keyword isKey, post]

theorem putKwarg_eq {key : Text} (isKey : IsWord key) (kw : Dict Text V) (literal : Text) :
    putKwarg python.eval kw (key ++ '=' :: literal) =
      (python.eval literal).map (fun value => kw.put key value) := by
  have noEqual : ∀ char ∈ key, decide (char ≠ '=') = true := by
    intro char member
    rw [decide_eq_true_iff]
    rintro rfl
    exact isKey.not_mem (by decide) member
  have trimmed : strip key = key :=
    VFS.strip_of_forall_not (fun char member => (isKey.2 char member).1)
  rw [putKwarg]
  simp only [List.takeWhile_append_of_pos noEqual, List.dropWhile_append_of_pos noEqual]
  have front : ('=' :: literal).takeWhile (fun char => decide (char ≠ '=')) = [] := rfl
  have back : (('=' :: literal).dropWhile (fun char => decide (char ≠ '='))).drop 1 = literal := rfl
  rw [front, back, List.append_nil, trimmed]
  cases python.eval literal with
  | ok value => rfl
  | error problem => rfl

/-- What is left of a literal that is cut is no expression. -/
theorem eval_post_fails (keyword : Keyword python) {cut dropped : Text}
    (isLiteral : keyword.literal = cut ++ dropped)
    (all : ∀ char ∈ dropped, char ∈ [',', ' ', ')'])
    (isCut : ',' ∈ cut ∨ dropped ≠ []) :
    ∃ problem, python.eval (post cut) = .error problem := by
  have literal := keyword.isLiteral
  obtain ⟨blanks, isFront, areBlanks⟩ :=
    rdropWhile_decomposed HostFile.isspace (cut.takeWhile (· ≠ ','))
  rcases comma_cases cut with ⟨absent, whole⟩ | ⟨back, comma⟩
  · have some : dropped ≠ [] := isCut.resolve_left absent
    have ends : dropped = dropped.takeWhile HostFile.isspace ++
        dropped.dropWhile HostFile.isspace := List.takeWhile_append_dropWhile.symm
    cases rest : dropped.dropWhile HostFile.isspace with
    | nil =>
        -- A literal does not end with a blank.
        have blank : ∀ char ∈ dropped, HostFile.isspace char = true :=
          List.dropWhile_eq_nil_iff.mp rest
        have trimmed := python.trimmed literal
        have short : (strip cut).length ≤ cut.length := (strip_sublist).length_le
        have same : strip (cut ++ dropped) = strip cut := strip_append_right blank cut
        have count := congrArg List.length trimmed
        rw [isLiteral, same, List.length_append] at count
        have positive := List.length_pos_of_ne_nil some
        omega
    | cons char more =>
        rw [rest] at ends
        have inDropped : char ∈ dropped := by
          rw [ends]
          simp
        have noSpace : HostFile.isspace char = false := by
          have stops := List.head?_dropWhile_not HostFile.isspace dropped
          rw [rest] at stops
          simpa using stops
        have sign : char = ',' ∨ char = ')' := by
          have inSet := all char inDropped
          simp only [List.mem_cons, List.not_mem_nil, or_false] at inSet
          rcases inSet with comma | space | paren
          · exact .inl comma
          · rw [space] at noSpace
            cases noSpace
          · exact .inr paren
        refine @Python.unclosed _ _ python (post cut)
          (blanks ++ dropped.takeWhile HostFile.isspace) more char keyword.value ?_ ?_ sign
        · have shape : post cut ++ (blanks ++ dropped.takeWhile HostFile.isspace) ++ char :: more =
              keyword.literal := by
            rw [isLiteral, post, ← List.append_assoc, ← isFront, whole, List.append_assoc, ← ends]
          rw [shape]
          exact literal
        · intro blank member
          rcases List.mem_append.mp member with left | right
          · exact areBlanks blank left
          · exact List.mem_takeWhile_imp right
  · refine @Python.unclosed _ _ python (post cut) blanks (back ++ dropped) ',' keyword.value ?_
      areBlanks (.inl rfl)
    have shape : post cut ++ blanks ++ ',' :: (back ++ dropped) = keyword.literal := by
      rw [isLiteral, post, ← isFront, ← List.cons_append, ← List.append_assoc, ← comma]
    rw [shape]
    exact literal

/-! ## Whole calls -/

/-- A loop that returns has evaluated each of its items. -/
theorem eval_of_foldlM {items : List Text} {start reached : Dict Text V}
    (done : items.foldlM (putKwarg python.eval) start = .ok reached) {key literal : Text}
    (isKey : IsWord key) (member : key ++ '=' :: literal ∈ items) :
    ∃ value, python.eval literal = .ok value := by
  induction items generalizing start with
  | nil => cases member
  | cons item items induction =>
      rw [List.foldlM_cons, bind_eq_ok_iff] at done
      obtain ⟨between, first, later⟩ := done
      rcases List.mem_cons.mp member with isItem | inRest
      · rw [← isItem, putKwarg_eq isKey] at first
        cases read : python.eval literal with
        | ok value => exact ⟨value, rfl⟩
        | error problem =>
            rw [read] at first
            cases first
      · exact induction later inRest

/-- Keywords with keys of their own are put in one behind the other. -/
theorem foldlM_keywords (keywords : List (Keyword python)) (start : Dict Text V)
    (distinct : (start.keys ++ keywords.map Keyword.key).Nodup) :
    ∃ reached, (keywords.map Keyword.text).foldlM (putKwarg python.eval) start = .ok reached ∧
      reached.entries =
        start.entries ++ keywords.map (fun keyword => (keyword.key, keyword.value)) := by
  induction keywords generalizing start with
  | nil => exact ⟨start, rfl, by simp⟩
  | cons keyword keywords induction =>
      have absent : keyword.key ∉ start.entries.map Prod.fst := by
        intro member
        exact (List.nodup_append.mp distinct).2.2 _ member _ List.mem_cons_self rfl
      have entries : (start.put keyword.key keyword.value).entries =
          start.entries ++ [(keyword.key, keyword.value)] := Dict.putEntries_of_not_mem absent
      have distinct' : ((start.put keyword.key keyword.value).keys ++
          keywords.map Keyword.key).Nodup := by
        rw [Dict.keys, entries, List.map_append, List.map_singleton, List.append_assoc]
        exact distinct
      obtain ⟨reached, walked, result⟩ := induction _ distinct'
      refine ⟨reached, ?_, ?_⟩
      · rw [List.map_cons, List.foldlM_cons, Keyword.text, putKwarg_eq keyword.isKey,
          python.eval_literal keyword.isLiteral]
        exact walked
      · rw [result, entries, List.append_assoc]
        rfl

theorem not_comma_key (keyword : Keyword python) : ',' ∉ keyword.key ++ ['='] := by
  rw [List.mem_append, not_or]
  exact ⟨keyword.isKey.not_mem (by decide), by decide⟩

theorem equal_mem_keyword (key cut : Text) : '=' ∈ key ++ '=' :: cut := by
  simp

/-- Every argument of a call without arguments is an empty text. -/
theorem argsGet_empty (call : Call python) (noArgs : call.args = []) (noKwargs : call.kwargs = []) :
    argsGet call.methodcode = [[]] := by
  rw [argsGet, if_pos (open_mem_methodcode call), inside_methodcode, noArgs, noKwargs]
  rfl

theorem args_read {args : List Positional} (clean : ∀ arg ∈ args, ',' ∉ arg.text ∧ '=' ∉ arg.text) :
    (args.map Positional.text).flatMap argsOf = args.map (fun arg => unquoted arg.text) ∧
      (args.map Positional.text).flatMap kwargsOf = [] := by
  induction args with
  | nil => exact ⟨rfl, rfl⟩
  | cons arg args induction =>
      obtain ⟨noComma, noEqual⟩ := clean arg List.mem_cons_self
      obtain ⟨positional, keywords⟩ :=
        induction (fun other member => clean other (List.mem_cons_of_mem _ member))
      rw [List.map_cons, List.flatMap_cons, List.flatMap_cons, positional, keywords,
        argsOf_eq_single noEqual noComma, kwargsOf_eq_nil noEqual noComma]
      exact ⟨rfl, rfl⟩

theorem clean_text {arg : Positional} (noComma : ',' ∉ arg.content) (noEqual : '=' ∉ arg.content) :
    ',' ∉ arg.text ∧ '=' ∉ arg.text :=
  ⟨fun member => noComma ((mem_text_iff (by decide)).mp member),
    fun member => noEqual ((mem_text_iff (by decide)).mp member)⟩

/-- The literals of a sound call are not cut. -/
theorem cutLast_eq {keywords : List (Keyword python)}
    (noComma : ∀ keyword ∈ keywords, ',' ∉ keyword.literal)
    (last : ∀ keyword, keywords.getLast? = some keyword → keyword.literal.getLast? ≠ some ')') :
    cutLast keywords = keywords.map Keyword.text := by
  rcases List.eq_nil_or_concat' keywords with empty | ⟨front, final, isConcat⟩
  · rw [empty]
    rfl
  · have isFinal : keywords.getLast? = some final := by rw [isConcat, List.getLast?_concat]
    have member : final ∈ keywords := List.mem_of_getLast? isFinal
    have kept : rstrip final.literal = final.literal := by
      apply rdropWhile_of_last
      intro char isLast
      have noParen : char ≠ ')' := by
        rintro rfl
        exact last final isFinal isLast
      have noSign : char ≠ ',' := by
        rintro rfl
        exact noComma final member (List.mem_of_getLast? isLast)
      have ends := (strip_eq_self_iff.mp (python.trimmed final.isLiteral)).2 char isLast
      have noBlank : char ≠ ' ' := by
        rintro rfl
        cases ends
      simp [noParen, noSign, noBlank]
    rw [isConcat, cutLast_concat, kept, List.map_append]
    rfl

theorem keywords_read {keywords : List (Keyword python)}
    (noComma : ∀ keyword ∈ keywords, ',' ∉ keyword.literal) :
    (keywords.map Keyword.text).flatMap argsOf = [] ∧
      (keywords.map Keyword.text).flatMap kwargsOf = keywords.map Keyword.text := by
  induction keywords with
  | nil => exact ⟨rfl, rfl⟩
  | cons keyword keywords induction =>
      obtain ⟨positional, others⟩ :=
        induction (fun other member => noComma other (List.mem_cons_of_mem _ member))
      have clean : ',' ∉ keyword.text := by
        have whole : keyword.text = (keyword.key ++ ['=']) ++ keyword.literal := by
          rw [Keyword.text, List.append_assoc, List.singleton_append]
        rw [whole, List.mem_append, not_or]
        exact ⟨not_comma_key keyword, noComma keyword List.mem_cons_self⟩
      have equal : '=' ∈ keyword.text := equal_mem_keyword _ _
      have trimmed : strip keyword.text = keyword.text := by
        rw [Keyword.text, strip_keyword keyword.isKey]
        congr 2
        apply rdropWhile_of_last
        exact (strip_eq_self_iff.mp (python.trimmed keyword.isLiteral)).2
      rw [List.map_cons, List.flatMap_cons, List.flatMap_cons, positional, others,
        argsOf_eq_nil equal clean, kwargsOf_eq_single equal clean, trimmed]
      exact ⟨rfl, rfl⟩

/-- Where all keywords are evaluated, none of their literals is cut. -/
theorem not_cut {keywords : List (Keyword python)} {kw : Dict Text V}
    (done : ((cutLast keywords).flatMap kwargsOf).foldlM (putKwarg python.eval) .empty = .ok kw) :
    (∀ keyword ∈ keywords, ',' ∉ keyword.literal) ∧
      ∀ keyword, keywords.getLast? = some keyword → keyword.literal.getLast? ≠ some ')' := by
  -- The literal before what is cut off it, which is evaluated.
  have whole : ∀ keyword ∈ keywords, ∀ cut, keyword.key ++ '=' :: cut ∈ cutLast keywords →
      ∀ dropped, keyword.literal = cut ++ dropped →
      (∀ char ∈ dropped, char ∈ [',', ' ', ')']) → ',' ∉ cut ∧ dropped = [] := by
    intro keyword _ cut member dropped isLiteral all
    have isItem : keyword.key ++ '=' :: post cut ∈ (cutLast keywords).flatMap kwargsOf :=
      List.mem_flatMap.mpr ⟨_, member, post_mem_kwargsOf keyword.isKey cut⟩
    obtain ⟨value, read⟩ := eval_of_foldlM done keyword.isKey isItem
    by_contra bad
    have isCut : ',' ∈ cut ∨ dropped ≠ [] := by
      by_contra neither
      rw [not_or, not_not] at neither
      exact bad neither
    obtain ⟨problem, failed⟩ := eval_post_fails keyword isLiteral all isCut
    rw [read] at failed
    cases failed
  have stripped : ∀ keyword : Keyword python, ∃ dropped,
      keyword.literal = rstrip keyword.literal ++ dropped ∧
        ∀ char ∈ dropped, char ∈ [',', ' ', ')'] := by
    intro keyword
    obtain ⟨dropped, isLiteral, all⟩ := rdropWhile_decomposed
      (fun char => decide (char ∈ [',', ' ', ')'])) keyword.literal
    exact ⟨dropped, isLiteral, fun char member => of_decide_eq_true (all char member)⟩
  constructor
  · intro keyword member
    obtain ⟨cut, inside, isCut | isCut⟩ := exists_mem_cutLast member
    · obtain ⟨noComma, -⟩ := whole keyword member cut inside [] (by simp [isCut]) (by simp)
      rw [← isCut]
      exact noComma
    · obtain ⟨dropped, isLiteral, all⟩ := stripped keyword
      rw [← isCut] at isLiteral
      obtain ⟨noComma, none⟩ := whole keyword member cut inside dropped isLiteral all
      rw [isLiteral, none, List.append_nil]
      exact noComma
  · intro keyword isLast paren
    obtain ⟨front, isConcat⟩ := List.getLast?_eq_some_iff.mp isLast
    obtain ⟨dropped, isLiteral, all⟩ := stripped keyword
    have inside : keyword.key ++ '=' :: rstrip keyword.literal ∈ cutLast keywords := by
      rw [isConcat, cutLast_concat]
      exact List.mem_append_right _ (List.mem_singleton_self _)
    obtain ⟨-, none⟩ := whole keyword (List.mem_of_getLast? isLast) _ inside dropped isLiteral all
    rw [none, List.append_nil] at isLiteral
    obtain ⟨text, isText⟩ := List.getLast?_eq_some_iff.mp paren
    have short : rstrip (text ++ [')']) = rstrip text :=
      List.rdropWhile_concat_pos _ _ _ (by decide)
    have shorter : (rstrip text).length ≤ text.length := (List.rdropWhile_prefix _ _).length_le
    have count := congrArg List.length isLiteral
    rw [isText, short, List.length_append, List.length_singleton] at count
    omega

theorem arguments_kept_iff (call : Call python) : call.AsClaimed ↔ call.Sound := by
  constructor
  · rintro ⟨positional, kw, evaluated, -⟩
    have filled : call.args ≠ [] ∨ call.kwargs ≠ [] := by
      by_contra neither
      rw [not_or, not_not, not_not] at neither
      rw [argsGet_empty call neither.1 neither.2, neither.1] at positional
      cases positional
    rw [argsGet_methodcode call filled] at positional
    rw [kwargsGet_methodcode call filled] at evaluated
    have content : ∀ arg ∈ call.args, ',' ∉ arg.content ∧ '=' ∉ arg.content := by
      intro arg member
      have isRead : arg.content ∈ call.args.map Positional.content := List.mem_map_of_mem member
      rw [← positional] at isRead
      obtain ⟨item, _, inItem⟩ := List.mem_flatMap.mp isRead
      exact of_mem_argsOf inItem
    obtain ⟨args, keywords⟩ := args_read (fun arg member =>
      clean_text (content arg member).1 (content arg member).2)
    rw [List.flatMap_append, keywords, List.nil_append] at evaluated
    rw [List.flatMap_append, args] at positional
    have same : call.args.map (fun arg => unquoted arg.text) = call.args.map Positional.content :=
      List.append_inj_left (positional.trans (List.append_nil _).symm) (by simp)
    obtain ⟨noComma, last⟩ := not_cut evaluated
    constructor
    case filled => exact filled
    case plain =>
      intro arg member
      exact arg.plain_iff.mpr ⟨content arg member, List.map_inj_left.mp same arg member⟩
    case noComma => exact noComma
    case last => exact last
  · intro sound
    have filled := sound.filled
    have plain := fun arg member => (Positional.plain_iff arg).mp (sound.plain arg member)
    obtain ⟨args, keywords⟩ := args_read (fun arg member =>
      clean_text (plain arg member).1.1 (plain arg member).1.2)
    obtain ⟨noArgs, kwargs⟩ := keywords_read sound.noComma
    have whole := cutLast_eq sound.noComma sound.last
    constructor
    · rw [argsGet_methodcode call filled, whole, List.flatMap_append, args, noArgs, List.append_nil]
      exact List.map_inj_left.mpr (fun arg member => (plain arg member).2)
    · have distinct : ((Dict.empty : Dict Text V).keys ++ call.kwargs.map Keyword.key).Nodup :=
        call.distinct
      obtain ⟨kw, evaluated, entries⟩ := foldlM_keywords call.kwargs .empty distinct
      refine ⟨kw, ?_, entries⟩
      rw [kwargsGet_methodcode call filled, whole, List.flatMap_append, keywords, kwargs,
        List.nil_append]
      exact evaluated

end

/-! ## A list -/

def pairText : Text :=
  ['[', '1', ',', '2', ']']

/-- `eval` of the literal `[1,2]` and of its parts. -/
def pairReader : Python Unit (List Nat) where
  eval text := if text = pairText then .ok [1, 2] else .error ()
  Literal text value := text = pairText ∧ value = [1, 2]
  eval_literal := by
    rintro text value ⟨rfl, rfl⟩
    rfl
  trimmed := by
    rintro text value ⟨rfl, -⟩
    decide
  unclosed := by
    rintro front blanks back char value ⟨isPair, -⟩ _ _
    refine ⟨(), if_neg ?_⟩
    rintro rfl
    have count := congrArg List.length isPair
    rw [List.length_append, List.length_append, List.length_cons] at count
    omega

/-- `toc(k=[1,2])` -/
def pairCall : Call pairReader where
  name := ['t', 'o', 'c']
  isName := by decide
  blanks := []
  areBlanks := by simp
  args := []
  kwargs := [{ key := ['k'], literal := pairText, value := [1, 2],
               isKey := ⟨by decide, List.forall_mem_singleton.mpr ⟨rfl, by decide⟩⟩,
               isLiteral := ⟨rfl, rfl⟩ }]
  distinct := by simp

/-- The end of the list is taken for a positional argument. -/
theorem list_is_cut : ¬ pairCall.AsClaimed := by
  rintro ⟨positional, -⟩
  have read : argsGet pairCall.methodcode = [['2', ']']] := by rfl
  rw [read] at positional
  cases positional

end JumpscaleX.MacroArgs
