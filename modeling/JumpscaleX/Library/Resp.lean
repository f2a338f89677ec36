import JumpscaleX.Library.TextBytes

/-!
# The redis serialization protocol

A reader of replies.  Simple strings, errors, numbers and lengths stand on one
line, without a carriage return or a line feed in it; a bulk string is as many
bytes as its header says.  The reader takes one reply from the start of its
input and gives back the rest, and it looks into as many arrays as its depth
allows.
-/

namespace Resp

open TextBytes

inductive Reply where
  | null
  | integer (value : Int)
  | simple (line : Bytes)
  | error (line : Bytes)
  | bulk (bytes : Bytes)
  | array (items : List Reply)

/-- Carriage return and line feed. -/
def CRLF : Bytes := [13, 10]

/-- A line without a carriage return or a line feed. -/
def Plain (line : Bytes) : Prop :=
  ∀ byte ∈ line, byte ≠ 13 ∧ byte ≠ 10

/-- The bytes behind the line feed that ends a line. -/
def endLine : Bytes → Option (Bytes × Bytes)
  | [] => none
  | next :: rest => if next = 10 then some ([], rest) else none

/-- The bytes up to the end of the line, and those behind it. -/
def readLine : Bytes → Option (Bytes × Bytes)
  | [] => none
  | byte :: input =>
      if byte = 13 then endLine input
      else if byte = 10 then none
      else (readLine input).map (fun (line, rest) => (byte :: line, rest))

/-- A number with its sign. -/
def readInt : Bytes → Option Int
  | [] => none
  | byte :: digits =>
      if byte = 45 then (readNat digits).map (fun number => -number)
      else (readNat (byte :: digits)).map (fun number => number)

/-- As many bytes as the header has said, with an end of line behind them. -/
def readBulk (size : Nat) (input : Bytes) : Option (Bytes × Bytes) :=
  match input.drop size with
  | 13 :: 10 :: rest => some (input.take size, rest)
  | _ => none

/-- As many replies in a row as the header has said. -/
def readMany (read : Bytes → Option (Reply × Bytes)) : Nat → Bytes → Option (List Reply × Bytes)
  | 0, input => some ([], input)
  | count + 1, input => do
      let (item, rest) ← read input
      let (items, rest) ← readMany read count rest
      some (item :: items, rest)

/-- A reply without items, from its mark, its first line and what is behind. -/
def readFlat (mark : UInt8) (line rest : Bytes) : Option (Reply × Bytes) :=
  if mark = 43 then some (.simple line, rest)
  else if mark = 45 then some (.error line, rest)
  else if mark = 58 then (readInt line).map (fun value => (.integer value, rest))
  else if mark = 36 then
    if line = [45, 49] then some (.null, rest)
    else do
      let size ← readNat line
      let (bytes, rest) ← readBulk size rest
      some (.bulk bytes, rest)
  else none

/-- One reply from the start of the input. -/
def read : Nat → Bytes → Option (Reply × Bytes)
  | 0, _ => none
  | _ + 1, [] => none
  | depth + 1, mark :: input => do
      let (line, rest) ← readLine input
      if mark = 42 then
        if line = [45, 49] then some (.null, rest)
        else do
          let count ← readNat line
          let (items, rest) ← readMany (read depth) count rest
          some (.array items, rest)
      else readFlat mark line rest

/-- The one reply that the input is. -/
def decode (input : Bytes) : Option Reply :=
  match read (input.length + 1) input with
  | some (reply, []) => some reply
  | _ => none

/-! ### Lines -/

theorem readLine_plain {line rest : Bytes} (plain : Plain line) :
    readLine (line ++ CRLF ++ rest) = some (line, rest) := by
  induction line with
  | nil => rfl
  | cons byte line induction =>
      obtain ⟨⟨notReturn, notFeed⟩, plain⟩ := List.forall_mem_cons.mp plain
      rw [List.cons_append, List.cons_append, readLine, if_neg notReturn, if_neg notFeed,
        induction plain]
      rfl

/-- A line that was read is plain. -/
theorem plain_of_readLine {input line rest : Bytes} (found : readLine input = some (line, rest)) :
    Plain line ∧ input = line ++ CRLF ++ rest := by
  induction input generalizing line with
  | nil => cases found
  | cons byte input induction =>
      rw [readLine] at found
      split at found
      · rename_i atReturn
        cases input with
        | nil => cases found
        | cons next input =>
            rw [endLine] at found
            split at found
            · rename_i atFeed
              cases found
              rw [atReturn, atFeed]
              exact ⟨by simp [Plain], rfl⟩
            · cases found
      · rename_i notReturn
        split at found
        · cases found
        · rename_i notFeed
          obtain ⟨⟨tail, after⟩, inside, same⟩ := Option.map_eq_some_iff.mp found
          cases same
          obtain ⟨plain, spelled⟩ := induction inside
          refine ⟨List.forall_mem_cons.mpr ⟨⟨notReturn, notFeed⟩, plain⟩, ?_⟩
          rw [spelled]
          rfl

theorem plain_spellNat (number : Nat) : Plain (spellNat number) := by
  intro byte member
  have digit := isDigit_of_mem_spellNat member
  constructor
  · rintro rfl
    exact absurd digit (by decide)
  · rintro rfl
    exact absurd digit (by decide)

/-- The digits of a length are not the mark of a null. -/
theorem spellNat_ne_null (number : Nat) : spellNat number ≠ [45, 49] := by
  intro same
  have digit : isDigit 45 = true := isDigit_of_mem_spellNat (same ▸ List.mem_cons_self)
  exact absurd digit (by decide)

theorem spellNat_eq_cons (number : Nat) :
    ∃ digit digits, spellNat number = digit :: digits ∧ digit ≠ 45 := by
  cases spelled : spellNat number with
  | nil =>
      have read := readNat_spellNat number
      rw [spelled] at read
      cases read
  | cons digit digits =>
      refine ⟨digit, digits, rfl, ?_⟩
      rintro rfl
      have isDigit : isDigit 45 = true :=
        isDigit_of_mem_spellNat (by rw [spelled]; exact List.mem_cons_self)
      exact absurd isDigit (by decide)

/-- The text of a number is read as the number. -/
theorem readInt_utf8 (number : Int) :
    Plain (utf8 (toString number)) ∧ readInt (utf8 (toString number)) = some number := by
  cases number with
  | ofNat number =>
      change Plain (utf8 (toString number)) ∧ readInt (utf8 (toString number)) = _
      rw [utf8_repr]
      refine ⟨plain_spellNat number, ?_⟩
      obtain ⟨digit, digits, spelled, unsigned⟩ := spellNat_eq_cons number
      have read := readNat_spellNat number
      rw [spelled] at read ⊢
      rw [readInt, if_neg unsigned, read]
      rfl
  | negSucc number =>
      have text : utf8 (toString (Int.negSucc number)) = 45 :: spellNat (number + 1) := by
        change utf8 ("-" ++ toString (number + 1)) = _
        rw [utf8_append, utf8_repr]
        rfl
      rw [text]
      refine ⟨List.forall_mem_cons.mpr ⟨by decide, plain_spellNat _⟩, ?_⟩
      rw [readInt, if_pos rfl, readNat_spellNat]
      rfl

/-! ### Replies -/

section

variable (depth : Nat) {line rest bytes : Bytes}

theorem read_simple (plain : Plain line) :
    read (depth + 1) (43 :: line ++ CRLF ++ rest) = some (.simple line, rest) := by
  rw [List.cons_append, List.cons_append, read, readLine_plain plain]
  rfl

theorem read_error (plain : Plain line) :
    read (depth + 1) (45 :: line ++ CRLF ++ rest) = some (.error line, rest) := by
  rw [List.cons_append, List.cons_append, read, readLine_plain plain]
  rfl

theorem read_integer (value : Int) :
    read (depth + 1) (58 :: utf8 (toString value) ++ CRLF ++ rest) =
      some (.integer value, rest) := by
  obtain ⟨plain, number⟩ := readInt_utf8 value
  rw [List.cons_append, List.cons_append, read, readLine_plain plain]
  change (readInt (utf8 (toString value))).map _ = _
  rw [number]
  rfl

theorem read_null : read (depth + 1) (36 :: [45, 49] ++ CRLF ++ rest) = some (.null, rest) := by
  rw [List.cons_append, List.cons_append, read, readLine_plain (by simp [Plain])]
  rfl

theorem readBulk_append : readBulk bytes.length (bytes ++ CRLF ++ rest) = some (bytes, rest) := by
  rw [readBulk, List.append_assoc, List.drop_left, List.take_left]
  rfl

theorem read_bulk :
    read (depth + 1) (36 :: spellNat bytes.length ++ CRLF ++ (bytes ++ CRLF ++ rest)) =
      some (.bulk bytes, rest) := by
  rw [List.cons_append, List.cons_append, read, readLine_plain (plain_spellNat _)]
  change (if spellNat bytes.length = [45, 49] then _ else _) = _
  rw [if_neg (spellNat_ne_null _), readNat_spellNat]
  change (readBulk bytes.length _ >>= _) = _
  rw [readBulk_append]
  rfl

theorem read_array {count : Nat} {input : Bytes} {items : List Reply}
    (many : readMany (read depth) count input = some (items, rest)) :
    read (depth + 1) (42 :: spellNat count ++ CRLF ++ input) = some (.array items, rest) := by
  rw [List.cons_append, List.cons_append, read, readLine_plain (plain_spellNat _)]
  change (if spellNat count = [45, 49] then _ else _) = _
  rw [if_neg (spellNat_ne_null _), readNat_spellNat]
  change (readMany (read depth) count input >>= _) = _
  rw [many]
  rfl

end

/-! ### What was read -/

section

variable {depth : Nat} {input rest : Bytes} {reply : Reply}

theorem of_read_simple (found : read (depth + 1) (43 :: input) = some (reply, rest)) :
    ∃ line, reply = .simple line ∧ Plain line ∧ input = line ++ CRLF ++ rest := by
  obtain ⟨⟨line, after⟩, first, same⟩ := Option.bind_eq_some_iff.mp found
  cases same
  exact ⟨line, rfl, plain_of_readLine first⟩

theorem of_read_error (found : read (depth + 1) (45 :: input) = some (reply, rest)) :
    ∃ line, reply = .error line ∧ Plain line ∧ input = line ++ CRLF ++ rest := by
  obtain ⟨⟨line, after⟩, first, same⟩ := Option.bind_eq_some_iff.mp found
  cases same
  exact ⟨line, rfl, plain_of_readLine first⟩

theorem length_of_readBulk {size : Nat} {bytes : Bytes}
    (found : readBulk size input = some (bytes, rest)) : bytes.length = size := by
  rw [readBulk] at found
  split at found
  · rename_i after behind
    cases found
    have longer := congrArg List.length behind
    rw [List.length_drop, List.length_cons] at longer
    exact List.length_take_of_le (by omega)
  · cases found

/-- A bulk string is as long as its header says. -/
theorem of_read_bulk {size : Nat}
    (found : read (depth + 1) (36 :: spellNat size ++ CRLF ++ input) = some (reply, rest)) :
    ∃ bytes, reply = .bulk bytes ∧ bytes.length = size := by
  rw [List.cons_append, List.cons_append, read, readLine_plain (plain_spellNat _)] at found
  change (if spellNat size = [45, 49] then _ else _) = _ at found
  rw [if_neg (spellNat_ne_null _), readNat_spellNat] at found
  obtain ⟨_, known, found⟩ := Option.bind_eq_some_iff.mp found
  cases known
  obtain ⟨⟨bytes, after⟩, inside, same⟩ := Option.bind_eq_some_iff.mp found
  cases same
  exact ⟨bytes, rfl, length_of_readBulk inside⟩

/-- An array has as many items as its header says. -/
theorem of_read_array {count : Nat}
    (found : read (depth + 1) (42 :: spellNat count ++ CRLF ++ input) = some (reply, rest)) :
    ∃ items, reply = .array items ∧ readMany (read depth) count input = some (items, rest) := by
  rw [List.cons_append, List.cons_append, read, readLine_plain (plain_spellNat _)] at found
  change (if spellNat count = [45, 49] then _ else _) = _ at found
  rw [if_neg (spellNat_ne_null _), readNat_spellNat] at found
  obtain ⟨_, known, found⟩ := Option.bind_eq_some_iff.mp found
  cases known
  obtain ⟨⟨items, after⟩, inside, same⟩ := Option.bind_eq_some_iff.mp found
  cases same
  exact ⟨items, rfl, inside⟩

theorem readMany_mono {first second : Bytes → Option (Reply × Bytes)}
    (wider : ∀ input result, first input = some result → second input = some result)
    {count : Nat} {items : List Reply} (found : readMany first count input = some (items, rest)) :
    readMany second count input = some (items, rest) := by
  induction count generalizing input items with
  | zero => exact found
  | succ count induction =>
      obtain ⟨⟨item, between⟩, one, more⟩ := Option.bind_eq_some_iff.mp found
      obtain ⟨⟨others, after⟩, several, same⟩ := Option.bind_eq_some_iff.mp more
      cases same
      rw [readMany, wider _ _ one]
      change (readMany second count between >>= _) = _
      rw [induction several]
      rfl

/-- What is read at one depth is read at every larger one. -/
theorem read_mono {larger : Nat} (deeper : depth ≤ larger)
    (found : read depth input = some (reply, rest)) :
    read larger input = some (reply, rest) := by
  induction depth generalizing larger input reply rest with
  | zero => cases found
  | succ depth induction =>
      obtain ⟨larger, rfl⟩ : ∃ other, larger = other + 1 := ⟨larger - 1, by omega⟩
      cases input with
      | nil => cases found
      | cons mark input =>
          obtain ⟨⟨line, after⟩, first, kind⟩ := Option.bind_eq_some_iff.mp found
          rw [read, first]
          change (if mark = 42 then _ else _) = _ at kind ⊢
          split at kind
          · rename_i array
            rw [if_pos array]
            split at kind
            · rename_i null
              rw [if_pos null]
              exact kind
            · rename_i notNull
              rw [if_neg notNull]
              obtain ⟨count, counted, kind⟩ := Option.bind_eq_some_iff.mp kind
              obtain ⟨⟨items, behind⟩, many, same⟩ := Option.bind_eq_some_iff.mp kind
              cases same
              have shallower : depth ≤ larger := by omega
              have wider := readMany_mono
                (fun _ ⟨_, _⟩ found => induction shallower found) many
              rw [counted]
              change (readMany (read larger) count after >>= _) = _
              rw [wider]
              rfl
          · rename_i flat
            rw [if_neg flat]
            exact kind

end

end Resp
