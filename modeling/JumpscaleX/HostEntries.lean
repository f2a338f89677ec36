import JumpscaleX.HostFile
import JumpscaleX.Library.Runs

/-!
# Entries of the hosts file

What the calls on the hosts file do to its lines, and when the file is a map from
addresses to names.
-/

namespace JumpscaleX.HostFile

open Lines Runs Stateful

/-- The address on a line is this one. -/
def own (ip : IPv4) (line : List Char) : Bool :=
  decide ((split line).head? = some ip.text)

/-- The line is a comment, or the line of another address. -/
def kept (ip : IPv4) (line : List Char) : Bool :=
  (split line).head?.any (fun first => decide (first ≠ ip.text))

def lines (file : List Char) : List (List Char) := file.splitOn '\n'

def keptLines (ip : IPv4) (file : List Char) : List (List Char) :=
  (lines file).filter (kept ip)

/-- The pattern of the address fits the line, its line break included. -/
def seen (ip : IPv4) (line : List Char) : Bool :=
  match dropAddress ip.text line with
  | some [] => true
  | some (blank :: _) => isspace blank
  | none => false

/-- The text that was found is one line, and begins with the address. -/
def IsEntry (ip : IPv4) (found : List Char) : Prop :=
  ip.text <+: found ∧ found.count '\n' = 1

/-- Every line that the pattern takes for one of the address is one, if the file has
one line at most for it. -/
def Distinct (ip : IPv4) (file : List Char) : Prop :=
  (lines file).countP (own ip) ≤ 1 → ∀ line ∈ lines file, seen ip line = true → own ip line = true

/-- The calls that do no harm.  The text that they find is one line with the address
itself, no other line that is kept ends in it, and what is appended begins a line. -/
def Sound (file : List Char) : Call → Prop
  | .hostnames_set ip _ _ => '\r' ∉ file ∧
      match searchEntry ip file with
      | some found => IsEntry ip found ∧
          ∀ line ∈ (lines file).dropLast, kept ip line = true → ¬ found.dropLast <:+ line
      | none => ip_exists file ip = false ∧ (file = [] ∨ file.getLast? = some '\n')
  | .ip_remove ip =>
      match searchEntry ip (readFile file) with
      | some found => '\r' ∉ file ∧ IsEntry ip found ∧
          (∀ line ∈ (lines file).dropLast, found.dropLast <:+ line → line = found.dropLast) ∧
          Distinct ip file
      | none => (lines file).countP (own ip) ≤ 1 → ip_exists file ip = false
  | .hostnames_get ip =>
      ip_exists file ip = true → (searchEntry ip (readFile file)).isSome = true
  | .ip_exists _ => True

/-- What the calls are to do. -/
def AsClaimed (file : List Char) : Call → Prop
  | .hostnames_set ip hostnames nonempty =>
      let after := step file (.hostnames_set ip hostnames nonempty)
      hostnames_get after ip = .ok (hostnames.map Hostname.text) ∧
        ip_exists after ip = true ∧ keptLines ip after = keptLines ip file
  | .ip_remove ip =>
      let after := step file (.ip_remove ip)
      ((lines file).countP (own ip) ≤ 1 → ip_exists after ip = false) ∧
        keptLines ip after = keptLines ip file
  | .hostnames_get ip => ∃ names, hostnames_get file ip = .ok names
  | .ip_exists _ => True

theorem IPv4.plain (ip : IPv4) {char : Char} (member : char ∈ ip.text) :
    char.isDigit = true ∨ char = '.' := by
  have valid := ip.valid
  simp only [isIPv4, Bool.and_eq_true, List.all_eq_true] at valid
  simpa using valid.1.1 char member

theorem isspace_of_digit {char : Char} (plain : char.isDigit = true ∨ char = '.') :
    isspace char = false := by
  rcases plain with digit | dot
  · simp only [Char.isDigit, Bool.and_eq_true, decide_eq_true_eq, UInt32.le_iff_toNat_le] at digit
    simp only [isspace, Char.toNat]
    have low : 48 ≤ char.val.toNat := by simpa using digit.1
    have high : char.val.toNat ≤ 57 := by simpa using digit.2
    grind
  · subst dot
    decide

theorem IPv4.not_isspace (ip : IPv4) {char : Char} (member : char ∈ ip.text) :
    isspace char = false :=
  isspace_of_digit (ip.plain member)

theorem IPv4.newline_notMem (ip : IPv4) : '\n' ∉ ip.text := by
  intro member
  exact absurd (ip.not_isspace member) (by decide)

theorem IPv4.return_notMem (ip : IPv4) : '\r' ∉ ip.text := by
  intro member
  exact absurd (ip.not_isspace member) (by decide)

theorem IPv4.text_ne_nil (ip : IPv4) : ip.text ≠ [] := by
  intro none
  have valid := ip.valid
  rw [none] at valid
  exact absurd valid (by decide)

section Patterns

variable {pattern chars rest : List Char}

/-- What follows the address stands behind as many characters, none of them a line break. -/
theorem dropAddress_eq_some (plain : '\n' ∉ pattern)
    (dropped : dropAddress pattern chars = some rest) :
    ∃ front, chars = front ++ rest ∧ front.length = pattern.length ∧ '\n' ∉ front := by
  induction pattern generalizing chars with
  | nil =>
      cases dropped
      exact ⟨[], rfl, rfl, by simp⟩
  | cons expected pattern induction =>
      rw [List.mem_cons, not_or] at plain
      cases chars with
      | nil => simp [dropAddress] at dropped
      | cons char chars =>
          have step : char ≠ '\n' ∧ dropAddress pattern chars = some rest := by
            by_cases dot : expected = '.'
            · subst dot
              rw [dropAddress] at dropped
              split at dropped
              · cases dropped
              · exact ⟨by assumption, dropped⟩
            · rw [dropAddress] at dropped
              · split at dropped
                · rename_i same
                  exact ⟨same ▸ Ne.symm plain.1, dropped⟩
                · cases dropped
              · exact fun same => dot same
          obtain ⟨front, same, length, clean⟩ := induction plain.2 step.2
          refine ⟨char :: front, by rw [same]; rfl, by simp [length], ?_⟩
          simp [clean, Ne.symm step.1]

/-- A longer text is followed by more. -/
theorem dropAddress_append (later : List Char) (enough : pattern.length < chars.length) :
    dropAddress pattern (chars ++ later) = (dropAddress pattern chars).map (· ++ later) := by
  induction pattern generalizing chars with
  | nil => rfl
  | cons expected pattern induction =>
      cases chars with
      | nil => simp at enough
      | cons char chars =>
          have shorter : pattern.length < chars.length := by simpa using enough
          by_cases dot : expected = '.'
          · subst dot
            simp only [List.cons_append, dropAddress]
            split
            · rfl
            · exact induction shorter
          · rw [List.cons_append, dropAddress, dropAddress]
            · split
              · exact induction shorter
              · rfl
            · exact fun same => dot same
            · exact fun same => dot same

/-- A line break ends the text as far as the address is concerned. -/
theorem dropAddress_line (plain : '\n' ∉ pattern) (line later : List Char) :
    dropAddress pattern (line ++ '\n' :: later) =
      (dropAddress pattern line).map (· ++ '\n' :: later) := by
  induction pattern generalizing line with
  | nil => rfl
  | cons expected pattern induction =>
      rw [List.mem_cons, not_or] at plain
      cases line with
      | nil =>
          by_cases dot : expected = '.'
          · subst dot
            simp [dropAddress]
          · rw [List.nil_append, dropAddress]
            · rw [if_neg plain.1]
              simp [dropAddress]
            · exact fun same => dot same
      | cons char line =>
          by_cases dot : expected = '.'
          · subst dot
            simp only [List.cons_append, dropAddress]
            split
            · rfl
            · exact induction plain.2 line
          · rw [List.cons_append, dropAddress, dropAddress]
            · split
              · exact induction plain.2 line
              · rfl
            · exact fun same => dot same
            · exact fun same => dot same

/-- An address fits itself. -/
theorem dropAddress_self (plain : '\n' ∉ pattern) (later : List Char) :
    dropAddress pattern (pattern ++ later) = some later := by
  induction pattern with
  | nil => rfl
  | cons expected pattern induction =>
      rw [List.mem_cons, not_or] at plain
      by_cases dot : expected = '.'
      · subst dot
        simp [dropAddress, induction plain.2]
      · rw [List.cons_append, dropAddress]
        · rw [if_pos rfl]
          exact induction plain.2
        · exact fun same => dot same

end Patterns

section Lookups

variable {ip : IPv4} {line later : List Char}

theorem matchStart_line (ip : IPv4) (line later : List Char) :
    matchStart ip (line ++ '\n' :: later) = if seen ip line then some () else none := by
  rw [matchStart, dropAddress_line ip.newline_notMem, seen]
  cases dropAddress ip.text line with
  | none => rfl
  | some rest =>
      cases rest with
      | nil => rfl
      | cons blank rest => rfl

theorem matchEntry_of_not_seen (unseen : seen ip line = false) :
    matchEntry ip (line ++ '\n' :: later) = none := by
  rw [matchEntry, dropAddress_line ip.newline_notMem]
  rw [seen] at unseen
  cases dropped : dropAddress ip.text line with
  | none => rfl
  | some rest =>
      rw [dropped] at unseen
      cases rest with
      | nil => cases unseen
      | cons blank rest => simp_all

/-- An address with a blank behind it has its line to itself. -/
theorem matchEntry_blank {blank : Char} {rest : List Char} (clean : '\n' ∉ line)
    (dropped : dropAddress ip.text line = some (blank :: rest)) (space : isspace blank = true) :
    matchEntry ip (line ++ '\n' :: later) = some (line ++ ['\n']) := by
  obtain ⟨front, same, length, _⟩ := dropAddress_eq_some ip.newline_notMem dropped
  subst same
  have absent : '\n' ∉ rest := by
    intro member
    exact clean (by simp [member])
  have body : (rest ++ '\n' :: later).takeWhile (· ≠ '\n') = rest := by
    rw [List.takeWhile_append_of_pos]
    · simp
    · intro char member
      have : char ≠ '\n' := fun same => absent (same ▸ member)
      simpa using this
  have front' : (front ++ blank :: (rest ++ '\n' :: later)).take (ip.text.length + 1) =
      front ++ [blank] := by
    rw [← length, List.take_append, List.take_of_length_le (by omega)]
    simp
  rw [matchEntry, dropAddress_line ip.newline_notMem, dropped]
  simpa [space, front'] using body

/-- An address that ends with its line is matched together with the next line. -/
theorem matchEntry_bare (dropped : dropAddress ip.text line = some []) :
    matchEntry ip (line ++ '\n' :: later) =
      if '\n' ∈ later then some (line ++ '\n' :: later.takeWhile (· ≠ '\n') ++ ['\n'])
      else none := by
  obtain ⟨front, same, length, _⟩ := dropAddress_eq_some ip.newline_notMem dropped
  rw [List.append_nil] at same
  subst same
  have front' : (line ++ '\n' :: later).take (ip.text.length + 1) = line ++ ['\n'] := by
    rw [← length, List.take_append, List.take_of_length_le (by omega)]
    simp
  rw [matchEntry, dropAddress_line ip.newline_notMem, dropped]
  have space : isspace '\n' = true := by decide
  simp [space, front']

theorem matchEntry_rest (absent : '\n' ∉ later) : matchEntry ip later = none := by
  rw [matchEntry]
  cases dropped : dropAddress ip.text later with
  | none => rfl
  | some rest =>
      obtain ⟨front, same, _, _⟩ := dropAddress_eq_some ip.newline_notMem dropped
      cases rest with
      | nil => rfl
      | cons blank rest =>
          have : '\n' ∉ rest := by
            intro member
            exact absent (by rw [same]; simp [member])
          simp [this]

/-- Where lines follow, each line that the pattern fits is matched. -/
theorem matchEntry_ne_none (clean : '\n' ∉ line) (fits : seen ip line = true)
    (more : '\n' ∈ later) : matchEntry ip (line ++ '\n' :: later) ≠ none := by
  rw [seen] at fits
  cases dropped : dropAddress ip.text line with
  | none => simp [dropped] at fits
  | some rest =>
      rw [dropped] at fits
      cases rest with
      | nil => simp [matchEntry_bare dropped, more]
      | cons blank rest => simp [matchEntry_blank clean dropped fits]

end Lookups

section Entries

variable {ip : IPv4} {ls before after : List (List Char)} {entry rest found names : List Char}
  {blank : Char}

theorem seen_entry (space : isspace blank = true) :
    seen ip (ip.text ++ blank :: names) = true := by
  rw [seen, dropAddress_self ip.newline_notMem]
  exact space

theorem lines_text (clean : ∀ line ∈ ls, '\n' ∉ line) (last : '\n' ∉ rest) :
    lines (text '\n' ls rest) = ls ++ [rest] := splitOn_text clean last

/-- A line of the address that no line before it is taken for is the one that is found. -/
theorem searchEntry_text (clean : ∀ line ∈ before ++ (ip.text ++ blank :: names) :: after,
    '\n' ∉ line) (last : '\n' ∉ rest) (space : isspace blank = true)
    (unseen : ∀ line ∈ before, seen ip line = false) :
    searchEntry ip (text '\n' (before ++ (ip.text ++ blank :: names) :: after) rest) =
      some (ip.text ++ blank :: names ++ ['\n']) := by
  refine (search_text clean last).mpr (Or.inl ⟨before, _, after, rfl, ?_, ?_⟩)
  · intro first middle second same
    rw [text_append, text_cons]
    apply matchEntry_of_not_seen
    exact unseen middle (by simp [same])
  · rw [text_cons]
    apply matchEntry_blank (clean _ (by simp)) (dropAddress_self ip.newline_notMem _) space

/-- The entry that is found is the first line that the pattern fits. -/
theorem searchEntry_found (clean : ∀ line ∈ ls, '\n' ∉ line) (last : '\n' ∉ rest)
    (search : searchEntry ip (text '\n' ls rest) = some found) (isEntry : IsEntry ip found) :
    ∃ before blank names after, ls = before ++ (ip.text ++ blank :: names) :: after ∧
      found = ip.text ++ blank :: names ++ ['\n'] ∧ isspace blank = true ∧
      ∀ line ∈ before, seen ip line = false := by
  rcases (search_text clean last).mp search with
    ⟨before, line, after, split, missed, here⟩ | ⟨_, here⟩
  · have lineClean : '\n' ∉ line := clean line (by simp [split])
    rw [text_cons] at here
    have unseen : ∀ other ∈ before, seen ip other = false := by
      intro other member
      obtain ⟨first, second, same⟩ := List.append_of_mem member
      by_contra fits
      have none := missed first other second same
      rw [text_append, text_cons] at none
      refine matchEntry_ne_none (clean other ?_) (by simpa using fits) ?_ none
      · simp [split, same]
      · simp [text]
    cases dropped : dropAddress ip.text line with
    | none =>
        rw [matchEntry_of_not_seen (by rw [seen, dropped])] at here
        cases here
    | some behind =>
        cases behind with
        | nil =>
            rw [matchEntry_bare dropped] at here
            split at here
            · cases here
              have := isEntry.2
              simp [List.count_append] at this
              omega
            · cases here
        | cons blank names =>
            have space : isspace blank = true := by
              by_contra word
              rw [matchEntry_of_not_seen (by rw [seen, dropped]; simpa using word)] at here
              cases here
            rw [matchEntry_blank lineClean dropped space] at here
            cases here
            obtain ⟨front, same, length, _⟩ := dropAddress_eq_some ip.newline_notMem dropped
            have starts : ip.text <+: front := by
              have := isEntry.1
              rw [same, List.append_assoc] at this
              exact List.prefix_of_prefix_length_le this (List.prefix_append _ _)
                (Nat.le_of_eq length.symm)
            have equal : front = ip.text := (starts.eq_of_length length.symm).symm
            subst equal
            rw [same] at split ⊢
            exact ⟨before, blank, names, after, split, rfl, space, unseen⟩
  · rw [matchEntry_rest last] at here
    cases here

/-- What `ip_exists` does not see is on no terminated line. -/
theorem unseen_of_searchStart (clean : ∀ line ∈ ls, '\n' ∉ line) (last : '\n' ∉ rest)
    (nothing : searchStart ip (text '\n' ls rest) = none) :
    ∀ line ∈ ls, seen ip line = false := by
  intro line member
  obtain ⟨first, second, same⟩ := List.append_of_mem member
  have here := ((search_eq_none_iff clean last).mp nothing).1 first line second same
  rw [text_cons, matchStart_line] at here
  by_contra fits
  simp [fits] at here

/-- Where no line fits the pattern, and the rest does not either, there is nothing. -/
theorem searchStart_eq_none (clean : ∀ line ∈ ls, '\n' ∉ line) (last : '\n' ∉ rest)
    (unseen : ∀ line ∈ ls ++ [rest], seen ip line = false) :
    searchStart ip (text '\n' ls rest) = none := by
  refine (search_eq_none_iff clean last).mpr ⟨?_, ?_⟩
  · intro first line second same
    rw [text_cons, matchStart_line, unseen line (by simp [same])]
    rfl
  · have fits := unseen rest (by simp)
    rw [seen] at fits
    rw [matchStart]
    cases dropped : dropAddress ip.text rest with
    | none => rfl
    | some behind =>
        rw [dropped] at fits
        cases behind with
        | nil => rfl
        | cons blank behind => simp_all

theorem searchStart_text (clean : ∀ line ∈ before ++ (ip.text ++ blank :: names) :: after,
    '\n' ∉ line) (last : '\n' ∉ rest) (space : isspace blank = true) :
    (searchStart ip
      (text '\n' (before ++ (ip.text ++ blank :: names) :: after) rest)).isSome = true := by
  by_contra nothing
  have none : searchStart ip
      (text '\n' (before ++ (ip.text ++ blank :: names) :: after) rest) = none := by
    simpa using nothing
  have := unseen_of_searchStart clean last none (ip.text ++ blank :: names) (by simp)
  rw [seen_entry space] at this
  cases this

end Entries

section Splitting

/-- A blank parts what is in front of it from what is behind it. -/
theorem split_append_cons (front : List Char) {blank : Char} (space : isspace blank = true)
    (behind : List Char) : split (front ++ blank :: behind) = split front ++ split behind := by
  rw [split, List.splitOnP_append_cons front behind space, List.filter_append, split, split]

theorem split_word {word : List Char} (nonempty : word ≠ [])
    (plain : ∀ char ∈ word, isspace char = false) : split word = [word] := by
  rw [split, List.splitOnP_eq_singleton plain]
  simp [nonempty]

/-- A text with a word in it has parts. -/
theorem split_ne_nil {chars : List Char} {char : Char} (member : char ∈ chars)
    (word : isspace char = false) : split chars ≠ [] := by
  induction chars with
  | nil => simp at member
  | cons head chars induction =>
      by_cases space : isspace head = true
      · have parted := split_append_cons [] space chars
        rw [List.nil_append] at parted
        rw [parted]
        have later : char ∈ chars := by
          rcases List.mem_cons.mp member with same | later
          · rw [same, space] at word
            cases word
          · exact later
        simpa using fun _ => induction later
      · rw [split, List.splitOnP_cons_eq_if_modifyHead, if_neg space]
        cases parts : chars.splitOnP isspace with
        | nil => exact (List.splitOnP_ne_nil _ _ parts).elim
        | cons first parts => simp

theorem split_dropWhile (chars : List Char) :
    split (chars.dropWhile isspace) = split chars := by
  induction chars with
  | nil => rfl
  | cons char chars induction =>
      by_cases space : isspace char = true
      · have parted := split_append_cons [] space chars
        rw [List.nil_append] at parted
        rw [List.dropWhile_cons_of_pos space, induction, parted]
        rfl
      · rw [List.dropWhile_cons_of_neg space]

/-- Blanks at the ends make no difference. -/
theorem split_strip (chars : List Char) : split (StringType.strip isspace chars) = split chars := by
  have trailing : ∀ reversed : List Char,
      split (reversed.dropWhile isspace).reverse = split reversed.reverse := by
    intro reversed
    induction reversed with
    | nil => rfl
    | cons char reversed induction =>
        by_cases space : isspace char = true
        · rw [List.dropWhile_cons_of_pos space, induction, List.reverse_cons,
            split_append_cons _ space]
          simp [split]
        · rw [List.dropWhile_cons_of_neg space]
  rw [StringType.strip, trailing, List.reverse_reverse, split_dropWhile]

/-- Words between blanks are the parts of the text. -/
theorem split_intercalate {words : List (List Char)} (nonempty : words ≠ [])
    (plain : ∀ word ∈ words, word ≠ [] ∧ ∀ char ∈ word, isspace char = false) :
    split ([' '].intercalate words) = words := by
  induction words with
  | nil => exact (nonempty rfl).elim
  | cons word words induction =>
      obtain ⟨⟨some, clean⟩, others⟩ := List.forall_mem_cons.mp plain
      cases words with
      | nil => simpa using split_word some clean
      | cons next words =>
          have space : isspace ' ' = true := by decide
          rw [List.intercalate_cons_cons, List.append_assoc, List.singleton_append,
            split_append_cons word space, split_word some clean, induction (by simp) others]
          rfl

end Splitting

section Calls

variable {ip : IPv4} {file : List Char} {hostnames : List Hostname}

theorem universalNewlines_of_notMem {chars : List Char} (absent : '\r' ∉ chars) :
    universalNewlines chars = chars := by
  induction chars with
  | nil => rfl
  | cons char chars induction =>
      rw [List.mem_cons, not_or] at absent
      rw [universalNewlines]
      · rw [induction absent.2]
      · rintro _ same
        exact (absent.1 same.symm).elim
      · intro same
        exact (absent.1 same.symm).elim

theorem Hostname.not_isspace (hostname : Hostname) {char : Char}
    (member : char ∈ hostname.text) : isspace char = false := by
  have := List.all_eq_true.mp hostname.plain char member
  simpa using this

theorem entryLine_eq (nonempty : hostnames ≠ []) :
    entryLine ip hostnames = [' '].intercalate (ip.text :: hostnames.map Hostname.text) := by
  cases hostnames with
  | nil => exact (nonempty rfl).elim
  | cons hostname hostnames =>
      rw [entryLine, List.map_cons, List.intercalate_cons_cons, List.append_assoc]
      rfl

/-- The line that is written reads back as the address and the names. -/
theorem split_entryLine (nonempty : hostnames ≠ []) :
    split (entryLine ip hostnames) = ip.text :: hostnames.map Hostname.text := by
  rw [entryLine_eq nonempty]
  apply split_intercalate (by simp)
  intro word member
  rcases List.mem_cons.mp member with same | named
  · subst same
    exact ⟨ip.text_ne_nil, fun char inside => ip.not_isspace inside⟩
  · obtain ⟨hostname, _, same⟩ := List.mem_map.mp named
    subst same
    exact ⟨hostname.some, fun char inside => hostname.not_isspace inside⟩

/-- Blanks are the only white space of the line that is written. -/
theorem blank_of_mem_entryLine {char : Char} (member : char ∈ entryLine ip hostnames)
    (space : isspace char = true) : char = ' ' := by
  rw [entryLine, List.mem_append, List.mem_cons] at member
  rcases member with address | same | named
  · rw [ip.not_isspace address] at space
    cases space
  · exact same
  · induction hostnames with
    | nil => simp at named
    | cons hostname hostnames induction =>
        cases hostnames with
        | nil =>
            rw [List.map_singleton, List.intercalate_singleton] at named
            rw [hostname.not_isspace named] at space
            cases space
        | cons next hostnames =>
            rw [List.map_cons, List.map_cons, List.intercalate_cons_cons, List.append_assoc,
              List.mem_append, List.singleton_append, List.mem_cons] at named
            rcases named with here | same | later
            · rw [hostname.not_isspace here] at space
              cases space
            · exact same
            · exact induction later

theorem newline_notMem_entryLine : '\n' ∉ entryLine ip hostnames := by
  intro member
  exact absurd (blank_of_mem_entryLine member (by decide)) (by decide)

theorem return_notMem_entryLine : '\r' ∉ entryLine ip hostnames := by
  intro member
  exact absurd (blank_of_mem_entryLine member (by decide)) (by decide)

/-- With the line that is written in front of every other line that the pattern fits,
the names are found. -/
theorem hostnames_get_text {before after : List (List Char)} {rest : List Char}
    (nonempty : hostnames ≠ [])
    (noReturn : '\r' ∉ text '\n' (before ++ entryLine ip hostnames :: after) rest)
    (clean : ∀ line ∈ before ++ entryLine ip hostnames :: after, '\n' ∉ line)
    (last : '\n' ∉ rest) (unseen : ∀ line ∈ before, seen ip line = false) :
    hostnames_get (text '\n' (before ++ entryLine ip hostnames :: after) rest) ip =
        .ok (hostnames.map Hostname.text) ∧
      ip_exists (text '\n' (before ++ entryLine ip hostnames :: after) rest) ip = true := by
  have space : isspace ' ' = true := by decide
  have there : ip_exists (text '\n' (before ++ entryLine ip hostnames :: after) rest) ip =
      true := by
    rw [ip_exists, readFile, universalNewlines_of_notMem noReturn]
    exact searchStart_text clean last space
  refine ⟨?_, there⟩
  have found : searchEntry ip (text '\n' (before ++ entryLine ip hostnames :: after) rest) =
      some (entryLine ip hostnames ++ ['\n']) := searchEntry_text clean last space unseen
  have newline : isspace '\n' = true := by decide
  rw [hostnames_get, if_pos there, readFile, universalNewlines_of_notMem noReturn, found]
  simp only [split_strip, split_append_cons _ newline, split_entryLine nonempty]
  simp [split]

/-- Whether the pattern fits a line is decided in front of an entry that is not all
of it. -/
theorem seen_editEnd {line names other : List Char} {blank : Char}
    (space : isspace blank = true) (unseen : seen ip line = false) :
    seen ip (editEnd (ip.text ++ blank :: names) (ip.text ++ ' ' :: other) line) = false := by
  by_cases ends : (ip.text ++ blank :: names) <:+ line
  · obtain ⟨start, rfl⟩ := ends
    cases start with
    | nil =>
        rw [List.nil_append, seen_entry space] at unseen
        cases unseen
    | cons head start =>
        have long : ip.text.length < (head :: start ++ ip.text).length := by
          rw [List.length_append, List.length_cons]
          omega
        have decided : ∀ later, seen ip (head :: start ++ ip.text ++ later) =
            seen ip (head :: start ++ ip.text) := by
          intro later
          rw [seen, seen, dropAddress_append later long]
          cases dropped : dropAddress ip.text (head :: start ++ ip.text) with
          | none => rfl
          | some behind =>
              cases behind with
              | nil =>
                  obtain ⟨front, same, length, _⟩ :=
                    dropAddress_eq_some ip.newline_notMem dropped
                  rw [List.append_nil] at same
                  rw [same] at long
                  omega
              | cons blank behind => rfl
        rw [editEnd_append, ← List.append_assoc, decided]
        rw [← List.append_assoc, decided] at unseen
        exact unseen
  · rw [editEnd_of_not_suffix ends]
    exact unseen

/-- A line that ends in an entry has the same first word with another one. -/
theorem kept_append {start names other : List Char} {blank : Char}
    (space : isspace blank = true) :
    kept ip (start ++ (ip.text ++ blank :: names)) =
      kept ip (start ++ (ip.text ++ ' ' :: other)) := by
  have first : ∀ {char : Char} (later : List Char), isspace char = true →
      (split (start ++ (ip.text ++ char :: later))).head? =
        (split (start ++ ip.text)).head? := by
    intro char later white
    have nonempty : split (start ++ ip.text) ≠ [] := by
      obtain ⟨head, tail, same⟩ := List.exists_cons_of_ne_nil ip.text_ne_nil
      have member : head ∈ ip.text := by simp [same]
      exact split_ne_nil (List.mem_append_right _ member) (ip.not_isspace member)
    rw [← List.append_assoc, split_append_cons _ white]
    exact List.head?_append_of_ne_nil _ nonempty
  rw [kept, kept, first names space, first other (by decide)]

/-- What a sound `hostnames_set` does: it edits the ends of lines behind those that the
pattern does not fit, or appends a line. -/
theorem hostnames_set_cases (nonempty : hostnames ≠ [])
    (sound : Sound file (.hostnames_set ip hostnames nonempty)) :
    (∃ before blank names after rest,
      file = text '\n' (before ++ (ip.text ++ blank :: names) :: after) rest ∧
      (∀ line ∈ before ++ (ip.text ++ blank :: names) :: after, '\n' ∉ line) ∧ '\n' ∉ rest ∧
      isspace blank = true ∧ (∀ line ∈ before, seen ip line = false) ∧
      (∀ line ∈ before ++ (ip.text ++ blank :: names) :: after, kept ip line = true →
        ¬ (ip.text ++ blank :: names) <:+ line) ∧
      hostnames_set file ip hostnames =
        text '\n' ((before ++ (ip.text ++ blank :: names) :: after).map
          (editEnd (ip.text ++ blank :: names) (entryLine ip hostnames))) rest) ∨
    (∃ before, file = text '\n' before [] ∧ (∀ line ∈ before, '\n' ∉ line) ∧
      (∀ line ∈ before, seen ip line = false) ∧
      hostnames_set file ip hostnames = text '\n' (before ++ [entryLine ip hostnames]) []) := by
  obtain ⟨noReturn, sound⟩ := sound
  obtain ⟨ls, rest, same, clean, last⟩ := exists_eq_text '\n' file
  have read : readFile file = file := universalNewlines_of_notMem noReturn
  cases search : searchEntry ip file with
  | some found =>
      simp only [search] at sound
      obtain ⟨isEntry, untouched⟩ := sound
      rw [same] at search
      obtain ⟨before, blank, names, after, split, found, space, unseen⟩ :=
        searchEntry_found clean last search isEntry
      refine Or.inl ⟨before, blank, names, after, rest, ?_, ?_, last, space, unseen, ?_, ?_⟩
      · rw [same, split]
      · rw [← split]
        exact clean
      · rw [found, same, lines_text clean last, List.dropLast_concat, List.dropLast_concat]
          at untouched
        simpa only [← split] using untouched
      · have absent : '\n' ∉ ip.text ++ blank :: names := clean _ (by simp [split])
        rw [hostnames_set, read, same, search, found, ← split]
        exact replace_line_text clean last absent
  | none =>
      simp only [search] at sound
      obtain ⟨nowhere, ended⟩ := sound
      have empty : rest = [] := by
        rcases ended with nothing | newline
        · rw [same] at nothing
          exact (List.append_eq_nil_iff.mp nothing).2
        · by_contra some
          rw [same, text, List.getLast?_append_of_ne_nil _ some] at newline
          exact last (List.mem_of_getLast? newline)
      subst empty
      have unseen : ∀ line ∈ ls, seen ip line = false := by
        apply unseen_of_searchStart clean last
        rw [ip_exists, read, same] at nowhere
        simpa using nowhere
      refine Or.inr ⟨ls, same, clean, unseen, ?_⟩
      rw [hostnames_set, read, search, same, text_append]
      simp [text]

theorem asClaimed_hostnames_set (nonempty : hostnames ≠ [])
    (sound : Sound file (.hostnames_set ip hostnames nonempty)) :
    AsClaimed file (.hostnames_set ip hostnames nonempty) := by
  have noReturn : '\r' ∉ file := sound.1
  rcases hostnames_set_cases nonempty sound with
    ⟨before, blank, names, after, rest, same, clean, last, space, unseen, untouched, result⟩ |
    ⟨before, same, clean, unseen, result⟩
  · have edited : editEnd (ip.text ++ blank :: names) (entryLine ip hostnames)
        (ip.text ++ blank :: names) = entryLine ip hostnames := by
      simp [editEnd]
    have mapped : (before ++ (ip.text ++ blank :: names) :: after).map
        (editEnd (ip.text ++ blank :: names) (entryLine ip hostnames)) =
        before.map (editEnd (ip.text ++ blank :: names) (entryLine ip hostnames)) ++
          entryLine ip hostnames ::
          after.map (editEnd (ip.text ++ blank :: names) (entryLine ip hostnames)) := by
      rw [List.map_append, List.map_cons, edited]
    have cleanAfter : ∀ line ∈ (before ++ (ip.text ++ blank :: names) :: after).map
        (editEnd (ip.text ++ blank :: names) (entryLine ip hostnames)), '\n' ∉ line := by
      intro line member breaks
      obtain ⟨old, inside, rfl⟩ := List.mem_map.mp member
      rcases mem_editEnd breaks with here | new
      · exact clean old inside here
      · exact newline_notMem_entryLine new
    have noReturnAfter : '\r' ∉ text '\n' ((before ++ (ip.text ++ blank :: names) :: after).map
        (editEnd (ip.text ++ blank :: names) (entryLine ip hostnames))) rest := by
      rw [same, mem_text_iff (by decide), not_or] at noReturn
      rw [mem_text_iff (by decide), not_or]
      refine ⟨?_, noReturn.2⟩
      rintro ⟨line, member, inside⟩
      obtain ⟨old, oldMember, rfl⟩ := List.mem_map.mp member
      rcases mem_editEnd inside with here | new
      · exact noReturn.1 ⟨old, oldMember, here⟩
      · exact return_notMem_entryLine new
    have unseenAfter : ∀ line ∈ before.map (editEnd (ip.text ++ blank :: names)
        (entryLine ip hostnames)), seen ip line = false := by
      intro line member
      obtain ⟨old, inside, rfl⟩ := List.mem_map.mp member
      exact seen_editEnd space (unseen old inside)
    obtain ⟨found, there⟩ := hostnames_get_text nonempty (mapped ▸ noReturnAfter)
      (mapped ▸ cleanAfter) last unseenAfter
    simp only [AsClaimed, step, result]
    refine ⟨mapped ▸ found, mapped ▸ there, ?_⟩
    rw [keptLines, keptLines, same, lines_text clean last, lines_text cleanAfter last,
      List.filter_append, List.filter_append]
    congr 1
    apply filter_map_eq
    intro line member
    by_cases ends : (ip.text ++ blank :: names) <:+ line
    · obtain ⟨start, rfl⟩ := ends
      have other : kept ip (start ++ (ip.text ++ blank :: names)) = false := by
        by_contra keeps
        exact untouched _ member (by simpa using keeps) (List.suffix_append _ _)
      refine ⟨?_, ?_⟩
      · rw [editEnd_append]
        exact (kept_append space).symm
      · intro keeps
        rw [other] at keeps
        cases keeps
    · rw [editEnd_of_not_suffix ends]
      exact ⟨rfl, fun _ => rfl⟩
  · have cleanAfter : ∀ line ∈ before ++ [entryLine ip hostnames], '\n' ∉ line := by
      intro line member
      rcases List.mem_append.mp member with old | new
      · exact clean line old
      · rw [List.mem_singleton.mp new]
        exact newline_notMem_entryLine
    have noReturnAfter : '\r' ∉ text '\n' (before ++ [entryLine ip hostnames]) [] := by
      rw [same] at noReturn
      have absent : '\r' ∉ entryLine ip hostnames := return_notMem_entryLine
      rw [text_append]
      simp_all [text]
    obtain ⟨names, there⟩ := hostnames_get_text nonempty noReturnAfter cleanAfter (by simp)
      unseen
    simp only [AsClaimed, step, result]
    refine ⟨names, there, ?_⟩
    have mine : kept ip (entryLine ip hostnames) = false := by
      rw [kept, split_entryLine nonempty]
      simp
    rw [keptLines, keptLines, same, lines_text clean (by simp), lines_text cleanAfter (by simp)]
    simp [List.filter_append, mine]

/-- An entry belongs to its address. -/
theorem own_entry {blank : Char} (names : List Char) (space : isspace blank = true) :
    own ip (ip.text ++ blank :: names) = true := by
  rw [own, split_append_cons _ space,
    split_word ip.text_ne_nil (fun char inside => ip.not_isspace inside)]
  simp

theorem kept_of_own {line : List Char} (mine : own ip line = true) : kept ip line = false := by
  rw [own, decide_eq_true_eq] at mine
  rw [kept, mine]
  simp

/-- With one line of the address at most, no line beside an entry is the address's. -/
theorem not_own_of_countP {before after : List (List Char)} {entry : List Char}
    (mine : own ip entry = true)
    (few : (before ++ entry :: after).countP (own ip) ≤ 1) :
    ∀ line ∈ before ++ after, own ip line = false := by
  rw [List.countP_append, List.countP_cons, if_pos mine] at few
  have none : (before ++ after).countP (own ip) = 0 := by
    rw [List.countP_append]
    omega
  intro line member
  simpa using List.countP_eq_zero.mp none line member

theorem asClaimed_ip_remove (sound : Sound file (.ip_remove ip)) :
    AsClaimed file (.ip_remove ip) := by
  cases search : searchEntry ip (readFile file) with
  | none =>
      simp only [Sound, search] at sound
      simpa [AsClaimed, step, ip_remove, search] using sound
  | some found =>
      simp only [Sound, search] at sound
      obtain ⟨noReturn, isEntry, whole, distinct⟩ := sound
      have read : readFile file = file := universalNewlines_of_notMem noReturn
      obtain ⟨ls, rest, same, clean, last⟩ := exists_eq_text '\n' file
      rw [read, same] at search
      obtain ⟨before, blank, names, after, split, found, space, unseen⟩ :=
        searchEntry_found clean last search isEntry
      have mine : own ip (ip.text ++ blank :: names) = true := own_entry names space
      have absent : '\n' ∉ ip.text ++ blank :: names := clean _ (by simp [split])
      have result : ip_remove file ip = text '\n'
          (ls.filter (fun line => decide (line ≠ ip.text ++ blank :: names))) rest := by
        rw [found, same, lines_text clean last, List.dropLast_concat, List.dropLast_concat]
          at whole
        rw [ip_remove, read, same, search, found]
        exact remove_line_text clean last absent whole
      have cleanAfter : ∀ line ∈ ls.filter
          (fun line => decide (line ≠ ip.text ++ blank :: names)), '\n' ∉ line := by
        intro line member
        exact clean line (List.mem_of_mem_filter member)
      simp only [AsClaimed, step, result]
      refine ⟨?_, ?_⟩
      · intro few
        have all := distinct few
        rw [same, lines_text clean last] at few all
        have others : ∀ line ∈ before ++ (after ++ [rest]), own ip line = false := by
          apply not_own_of_countP mine
          simpa [split] using few
        have noReturnAfter : '\r' ∉ text '\n' (ls.filter
            (fun line => decide (line ≠ ip.text ++ blank :: names))) rest := by
          rw [same, mem_text_iff (by decide), not_or] at noReturn
          rw [mem_text_iff (by decide), not_or]
          refine ⟨?_, noReturn.2⟩
          rintro ⟨line, member, inside⟩
          exact noReturn.1 ⟨line, List.mem_of_mem_filter member, inside⟩
        have nothing := searchStart_eq_none cleanAfter last (show ∀ line ∈ _, seen ip line = false by
          intro line member
          have notMine : own ip line = false := by
            apply others
            rcases List.mem_append.mp member with inside | behind
            · obtain ⟨old, different⟩ := List.mem_filter.mp inside
              have different : line ≠ ip.text ++ blank :: names := by simpa using different
              rw [split] at old
              simp only [List.mem_append, List.mem_cons] at old ⊢
              rcases old with front | equal | back
              · exact Or.inl front
              · exact (different equal).elim
              · exact Or.inr (Or.inl back)
            · simp only [List.mem_append]
              exact Or.inr (Or.inr behind)
          have there : line ∈ ls ++ [rest] := by
            rcases List.mem_append.mp member with inside | behind
            · exact List.mem_append_left _ (List.mem_of_mem_filter inside)
            · exact List.mem_append_right _ behind
          by_contra fits
          have := all line there (by simpa using fits)
          rw [notMine] at this
          cases this)
        rw [ip_exists, readFile, universalNewlines_of_notMem noReturnAfter, nothing]
        rfl
      · rw [keptLines, keptLines, same, lines_text clean last, lines_text cleanAfter last,
          List.filter_append, List.filter_append, List.filter_filter]
        congr 1
        apply List.filter_congr
        intro line _
        by_cases equal : line = ip.text ++ blank :: names
        · subst equal
          simp [kept_of_own mine]
        · simp [equal]

theorem asClaimed_hostnames_get (sound : Sound file (.hostnames_get ip)) :
    AsClaimed file (.hostnames_get ip) := by
  rw [AsClaimed, hostnames_get]
  by_cases there : ip_exists file ip = true
  · obtain ⟨found, search⟩ := Option.isSome_iff_exists.mp (sound there)
    rw [if_pos there, search]
    exact ⟨_, rfl⟩
  · rw [if_neg there]
    exact ⟨_, rfl⟩

end Calls

/-- In every run of calls on every file in which all calls are sound, all of them do
what they are to do. -/
theorem hosts_map {file : List Char} {calls : List Call} (sound : Along Sound step file calls) :
    Along AsClaimed step file calls := by
  refine along_imp ?_ sound
  intro file call sound
  cases call with
  | hostnames_set ip hostnames nonempty => exact asClaimed_hostnames_set nonempty sound
  | ip_remove ip => exact asClaimed_ip_remove sound
  | ip_exists ip => trivial
  | hostnames_get ip => exact asClaimed_hostnames_get sound

/-- The address of the examples, and a name. -/
def database : IPv4 := ⟨"10.0.0.1".toList, by decide⟩

def db : Hostname := ⟨"db".toList, by decide, by decide⟩

/-- Names are set, read and removed beside another address and a comment. -/
theorem hosts_map_database :
    Along Sound step "# hosts\n127.0.0.1\tlocalhost\n".toList
        [.hostnames_set database [db] (by simp), .hostnames_get database, .ip_remove database] ∧
      Along AsClaimed step "# hosts\n127.0.0.1\tlocalhost\n".toList
        [.hostnames_set database [db] (by simp), .hostnames_get database,
          .ip_remove database] := by
  have written : step "# hosts\n127.0.0.1\tlocalhost\n".toList
      (.hostnames_set database [db] (by simp)) =
        "# hosts\n127.0.0.1\tlocalhost\n10.0.0.1 db\n".toList := by decide
  have first : searchEntry database "# hosts\n127.0.0.1\tlocalhost\n".toList = none := by
    decide
  have second : searchEntry database
      (readFile "# hosts\n127.0.0.1\tlocalhost\n10.0.0.1 db\n".toList) =
        some "10.0.0.1 db\n".toList := by decide
  have sound : Along Sound step "# hosts\n127.0.0.1\tlocalhost\n".toList
      [.hostnames_set database [db] (by simp), .hostnames_get database,
        .ip_remove database] := by
    refine ⟨?_, ?_, ?_, trivial⟩
    · simp only [Sound, first]
      exact ⟨by decide, by decide, by decide⟩
    · rw [written]
      intro _
      rw [second]
      rfl
    · rw [written]
      simp only [step, Sound, second]
      refine ⟨by decide, ⟨by decide, by decide⟩, by decide, ?_⟩
      rw [Distinct]
      decide
  exact ⟨sound, hosts_map sound⟩

/-- An entry that is commented out above the entry is rewritten with it. -/
theorem commented_entry_rewritten :
    ¬ Along AsClaimed step "#10.0.0.1 old\n10.0.0.1 old\n".toList
      [.hostnames_set database [db] (by simp)] := by
  intro claimed
  have same : keptLines database (hostnames_set "#10.0.0.1 old\n10.0.0.1 old\n".toList
      database [db]) = keptLines database "#10.0.0.1 old\n10.0.0.1 old\n".toList :=
    claimed.1.2.2
  exact absurd same (by decide)

end JumpscaleX.HostFile
