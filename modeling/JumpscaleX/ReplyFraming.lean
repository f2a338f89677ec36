import JumpscaleX.RedisResponseWriter

/-!
# The framing of replies

What the writer sends for a value is one reply that reads as the value exactly
when its texts are framed: a text with a line feed in it is sent behind the
number of its characters, and every other text stands on one line.
-/

namespace JumpscaleX

open TextBytes Resp

namespace Gedis

/-- A list without the marker that it may start with. -/
def unmarked : List Value → List Value
  | .str first :: rest => if first = "*REDIS*" then rest else .str first :: rest
  | items => items

/-- What a client reads: a text and bytes are both bytes to it. -/
inductive Datum where
  | null
  | integer (value : Int)
  | bytes (bytes : Bytes)
  | array (items : List Datum)
  | error (line : Bytes)

mutual

def Value.datum : Value → Datum
  | .none => .null
  | .int value => .integer value
  | .bool value => .integer (if value then 1 else 0)
  | .str text => .bytes (utf8 text)
  | .bytes data => .bytes data
  | .list items =>
      match items with
      | .str first :: rest =>
          if first = "*REDIS*" then .array (Value.datums rest)
          else .array (Value.datums (.str first :: rest))
      | items => .array (Value.datums items)
  | .other repr => .bytes (utf8 repr)

def Value.datums : List Value → List Datum
  | [] => []
  | item :: items => item.datum :: Value.datums items

end

mutual

/-- What a reply is read as. -/
def replyDatum : Reply → Datum
  | .null => .null
  | .integer value => .integer value
  | .simple line => .bytes line
  | .error line => .error line
  | .bulk bytes => .bytes bytes
  | .array items => .array (replyDatums items)

def replyDatums : List Reply → List Datum
  | [] => []
  | item :: items => replyDatum item :: replyDatums items

end

/-- No carriage return and no line feed. -/
def OneLine (text : String) : Prop :=
  '\r' ∉ text.toList ∧ '\n' ∉ text.toList

/-- Every text in the value is framed by its own bytes: it stands on one line,
or its characters are as many as its bytes. -/
inductive Value.Framed : Value → Prop
  | none : Value.Framed .none
  | int (value : Int) : Value.Framed (.int value)
  | bool (value : Bool) : Value.Framed (.bool value)
  | line {text : String} : OneLine text → Value.Framed (.str text)
  | lines {text : String} : '\n' ∈ text.toList → Ascii text → Value.Framed (.str text)
  | bytes (data : Bytes) : Value.Framed (.bytes data)
  | list {items : List Value} : (∀ item ∈ unmarked items, Value.Framed item) →
      Value.Framed (.list items)
  | other {repr : String} : Ascii repr → Value.Framed (.other repr)

/-- What is sent for a call is one reply that fits. -/
def WritesReply (call : RedisResponseWriter → RedisResponseWriter) (fits : Reply → Prop) :
    Prop :=
  ∀ sent, ∃ bytes, call ⟨sent, []⟩ = ⟨sent ++ bytes, []⟩ ∧
    ∃ reply, decode bytes = some reply ∧ fits reply

/-! ### Values and their items -/

mutual

/-- A property of every value, from the flat ones and from the items of a
list. -/
theorem Value.induction {motive : Value → Prop}
    (flat : ∀ value, (∀ items, value ≠ .list items) → motive value)
    (list : ∀ items, (∀ item ∈ items, motive item) → motive (.list items))
    (value : Value) : motive value := by
  cases value with
  | list items => exact list items (Value.inductionItems flat list items)
  | _ => exact flat _ nofun

theorem Value.inductionItems {motive : Value → Prop}
    (flat : ∀ value, (∀ items, value ≠ .list items) → motive value)
    (list : ∀ items, (∀ item ∈ items, motive item) → motive (.list items))
    (items : List Value) : ∀ item ∈ items, motive item := by
  cases items with
  | nil => exact fun _ member => nomatch member
  | cons item items =>
      exact List.forall_mem_cons.mpr
        ⟨Value.induction flat list item, Value.inductionItems flat list items⟩

end

theorem mem_of_mem_unmarked {items : List Value} {item : Value} (member : item ∈ unmarked items) :
    item ∈ items := by
  unfold unmarked at member
  split at member
  · split at member
    · exact List.mem_cons_of_mem _ member
    · exact member
  · exact member

theorem datum_list (items : List Value) :
    (Value.list items).datum = .array (Value.datums (unmarked items)) := by
  cases items with
  | nil => rfl
  | cons first rest =>
      cases first with
      | str text =>
          by_cases marker : text = "*REDIS*"
          · simp [Value.datum, unmarked, marker]
          · simp [Value.datum, unmarked, marker]
      | _ => rfl

/-! ### What is written -/

namespace RedisResponseWriter

/-- A call sends the buffer, then bytes of its own. -/
def Sends (call : RedisResponseWriter → RedisResponseWriter) (bytes : Bytes) : Prop :=
  ∀ writer, call writer = ⟨writer.socket ++ (writer.buffer ++ bytes), []⟩

theorem encode_list (writer : RedisResponseWriter) (items : List Value) :
    writer.encode (.list items) =
      (encodeItems (writer.arrayHeader (unmarked items).length) (unmarked items)).send := by
  cases items with
  | nil => rfl
  | cons first rest =>
      cases first with
      | str text =>
          by_cases marker : text = "*REDIS*"
          · simp [encode, unmarked, marker]
          · simp [encode, unmarked, marker]
      | _ => rfl

/-- The bytes for a value. -/
def rendered (value : Value) : Bytes :=
  (encode ⟨[], []⟩ value).socket

theorem rendered_of_sends {value : Value} {bytes : Bytes}
    (sends : Sends (fun writer => writer.encode value) bytes) : rendered value = bytes := by
  exact congrArg RedisResponseWriter.socket (sends ⟨[], []⟩)

theorem sends_writeBuffer (data : String) :
    Sends (fun writer => (writer.writeBuffer data).send) (utf8 data) :=
  fun _ => rfl

theorem utf8_header (mark : String) (number : Nat) :
    utf8 (mark ++ toString number ++ "\r\n") = utf8 mark ++ spellNat number ++ CRLF := by
  rw [utf8_append, utf8_append, utf8_repr]
  rfl

theorem sends_bulk (value : String) :
    Sends (fun writer => (writer.bulk value).send)
      (36 :: spellNat value.length ++ CRLF ++ (utf8 value ++ CRLF)) := by
  intro writer
  have bytes : utf8 ("$" ++ toString value.length ++ "\r\n" ++ value ++ "\r\n") =
      36 :: spellNat value.length ++ CRLF ++ (utf8 value ++ CRLF) := by
    rw [utf8_append, utf8_append, utf8_header, List.append_assoc]
    rfl
  rw [← bytes]
  rfl

theorem sends_bulkbytes (value : Bytes) :
    Sends (fun writer => (writer.bulkbytes value).send)
      (36 :: spellNat value.length ++ CRLF ++ (value ++ CRLF)) := by
  intro writer
  have bytes : utf8 "$" ++ utf8 (toString value.length) ++ utf8 "\r\n" ++ value ++ utf8 "\r\n" =
      36 :: spellNat value.length ++ CRLF ++ (value ++ CRLF) := by
    rw [utf8_repr, List.append_assoc]
    rfl
  rw [← bytes]
  rfl

/-- The items of an array, each of which is sent with what the buffer holds. -/
theorem encodeItems_send {items : List Value}
    (sends : ∀ item ∈ items, Sends (fun writer => writer.encode item) (rendered item)) :
    Sends (fun writer => (encodeItems writer items).send) (items.flatMap rendered) := by
  induction items with
  | nil =>
      intro writer
      simp [encodeItems, send]
  | cons item items induction =>
      obtain ⟨first, rest⟩ := List.forall_mem_cons.mp sends
      intro writer
      calc
        (encodeItems writer (item :: items)).send
            = (encodeItems (writer.encode item) items).send := rfl
        _ = (encodeItems ⟨writer.socket ++ (writer.buffer ++ rendered item), []⟩ items).send :=
          congrArg (fun writer => (encodeItems writer items).send) (first writer)
        _ = ⟨writer.socket ++ (writer.buffer ++ rendered item) ++
              ([] ++ items.flatMap rendered), []⟩ := induction rest _
        _ = ⟨writer.socket ++ (writer.buffer ++ (item :: items).flatMap rendered), []⟩ := by
          simp

theorem sends_array {items : List Value}
    (sends : ∀ item ∈ items, Sends (fun writer => writer.encode item) (rendered item)) :
    Sends (fun writer => (encodeItems (writer.arrayHeader items.length) items).send)
      (42 :: spellNat items.length ++ CRLF ++ items.flatMap rendered) := by
  intro writer
  have header : writer.arrayHeader items.length =
      { writer with buffer := writer.buffer ++ (42 :: spellNat items.length ++ CRLF) } := by
    rw [arrayHeader, writeBuffer, utf8_header]
    rfl
  calc
    (encodeItems (writer.arrayHeader items.length) items).send
        = ⟨writer.socket ++ (writer.buffer ++ (42 :: spellNat items.length ++ CRLF) ++
            items.flatMap rendered), []⟩ := by
          rw [header]
          exact encodeItems_send sends _
    _ = ⟨writer.socket ++ (writer.buffer ++
          (42 :: spellNat items.length ++ CRLF ++ items.flatMap rendered)), []⟩ := by
      rw [List.append_assoc writer.buffer]

theorem sends_list {items : List Value}
    (sends : ∀ item ∈ unmarked items, Sends (fun writer => writer.encode item) (rendered item)) :
    Sends (fun writer => writer.encode (.list items))
      (42 :: spellNat (unmarked items).length ++ CRLF ++ (unmarked items).flatMap rendered) :=
  fun writer => (encode_list writer items).trans (sends_array sends writer)

/-- A text with a line feed in it is sent as a bulk string. -/
theorem sends_lines {text : String} (feed : '\n' ∈ text.toList) :
    Sends (fun writer => writer.encode (.str text))
      (36 :: spellNat text.length ++ CRLF ++ (utf8 text ++ CRLF)) := by
  intro writer
  simp only [encode, if_pos feed]
  exact sends_bulk text writer

/-- Any other text is sent as a simple string. -/
theorem sends_line {text : String} (noFeed : '\n' ∉ text.toList) :
    Sends (fun writer => writer.encode (.str text)) (43 :: utf8 text ++ CRLF) := by
  intro writer
  have bytes : utf8 ("+" ++ text ++ "\r\n") = 43 :: utf8 text ++ CRLF := by
    rw [utf8_append, utf8_append]
    rfl
  simp only [encode, if_neg noFeed]
  rw [← bytes]
  exact sends_writeBuffer _ writer

theorem sends_integer (value : Int) :
    Sends (fun writer => (writer.writeBuffer (":" ++ toString value ++ "\r\n")).send)
      (58 :: utf8 (toString value) ++ CRLF) := by
  intro writer
  have bytes : utf8 (":" ++ toString value ++ "\r\n") = 58 :: utf8 (toString value) ++ CRLF := by
    rw [utf8_append, utf8_append]
    rfl
  rw [← bytes]
  exact sends_writeBuffer _ writer

/-- Encoding a value sends the buffer, then the bytes for the value. -/
theorem sends_rendered (value : Value) :
    Sends (fun writer => writer.encode value) (rendered value) := by
  have known {value : Value} {bytes : Bytes}
      (sends : Sends (fun writer => writer.encode value) bytes) :
      Sends (fun writer => writer.encode value) (rendered value) := by
    rw [rendered_of_sends sends]
    exact sends
  induction value using Value.induction with
  | flat value notList =>
      cases value with
      | none => exact known (sends_writeBuffer _)
      | int value => exact known (sends_writeBuffer _)
      | bool value => exact known (sends_writeBuffer _)
      | str text =>
          by_cases feed : '\n' ∈ text.toList
          · exact known (sends_lines feed)
          · exact known (sends_line feed)
      | bytes data => exact known (sends_bulkbytes data)
      | list items => exact absurd rfl (notList items)
      | other repr => exact known (sends_bulk repr)
  | list items induction =>
      exact known (sends_list fun item member => induction item (mem_of_mem_unmarked member))

end RedisResponseWriter

open RedisResponseWriter

/-! ### What is read -/

theorem decode_eq_some_iff {input : Bytes} {reply : Reply} :
    decode input = some reply ↔ read (input.length + 1) input = some (reply, []) := by
  unfold decode
  split
  · rename_i found
    rw [found]
    simp
  · rename_i other
    constructor
    · intro impossible
      cases impossible
    · intro found
      exact absurd found (other reply)

/-- The value is read back from what is sent for it, whatever comes behind. -/
def ReadsBack (value : Value) (reply : Reply) : Prop :=
  replyDatum reply = value.datum ∧
    ∀ depth rest, (rendered value).length ≤ depth →
      read depth (rendered value ++ rest) = some (reply, rest)

/-- A value that is read at any depth is read back. -/
theorem readsBack_of_flat {value : Value} {reply : Reply} {mark : UInt8} {bytes : Bytes}
    (means : replyDatum reply = value.datum) (sent : rendered value = mark :: bytes)
    (reads : ∀ depth rest, read (depth + 1) (mark :: bytes ++ rest) = some (reply, rest)) :
    ReadsBack value reply := by
  refine ⟨means, ?_⟩
  intro depth rest enough
  rw [sent] at enough ⊢
  obtain ⟨less, rfl⟩ : ∃ less, depth = less + 1 := by
    rw [List.length_cons] at enough
    exact ⟨depth - 1, by omega⟩
  exact reads less rest

theorem readsBack_bulk {value : Value} {data : Bytes}
    (means : value.datum = .bytes data)
    (sent : rendered value = 36 :: spellNat data.length ++ CRLF ++ (data ++ CRLF)) :
    ReadsBack value (.bulk data) := by
  refine readsBack_of_flat means.symm sent ?_
  intro depth rest
  change read (depth + 1) (36 :: spellNat data.length ++ CRLF ++ (data ++ CRLF) ++ rest) = _
  rw [List.append_assoc _ (data ++ CRLF)]
  exact read_bulk depth

theorem readsBack_integer {value : Value} {number : Int}
    (means : value.datum = .integer number)
    (sent : rendered value = 58 :: utf8 (toString number) ++ CRLF) :
    ReadsBack value (.integer number) :=
  readsBack_of_flat means.symm sent fun depth _ => read_integer depth number

theorem plain_iff_oneLine {text : String} : Plain (utf8 text) ↔ OneLine text := by
  have feed : (10 : UInt8) ∈ utf8 text ↔ '\n' ∈ text.toList :=
    mem_ofChars_iff '\n' (by decide)
  have carriage : (13 : UInt8) ∈ utf8 text ↔ '\r' ∈ text.toList :=
    mem_ofChars_iff '\r' (by decide)
  rw [OneLine, ← feed, ← carriage]
  constructor
  · intro plain
    exact ⟨fun member => (plain 13 member).1 rfl, fun member => (plain 10 member).2 rfl⟩
  · rintro ⟨noReturn, noFeed⟩ byte member
    exact ⟨fun same => noReturn (same ▸ member), fun same => noFeed (same ▸ member)⟩

/-- The items of a list are read back one after the other. -/
theorem readMany_of_readsBack {items : List Value}
    (back : ∀ item ∈ items, ∃ reply, ReadsBack item reply) :
    ∃ replies, replyDatums replies = Value.datums items ∧
      ∀ depth rest, (items.flatMap rendered).length ≤ depth →
        readMany (read depth) items.length (items.flatMap rendered ++ rest) =
          some (replies, rest) := by
  induction items with
  | nil => exact ⟨[], rfl, fun _ _ _ => rfl⟩
  | cons item items induction =>
      obtain ⟨⟨reply, means, first⟩, back⟩ := List.forall_mem_cons.mp back
      obtain ⟨replies, mean, others⟩ := induction back
      refine ⟨reply :: replies, congrArg₂ List.cons means mean, ?_⟩
      intro depth rest enough
      rw [List.flatMap_cons, List.length_append] at enough
      rw [List.flatMap_cons, List.length_cons, List.append_assoc, readMany,
        first depth _ (by omega)]
      change (readMany (read depth) items.length _ >>= _) = _
      rw [others depth rest (by omega)]
      rfl

theorem readsBack_of_framed {value : Value} (framed : value.Framed) :
    ∃ reply, ReadsBack value reply := by
  induction framed with
  | none =>
      exact ⟨.null, readsBack_of_flat rfl (rendered_of_sends (sends_writeBuffer _))
        fun depth _ => read_null depth⟩
  | int value =>
      exact ⟨_, readsBack_integer rfl (rendered_of_sends (sends_integer value))⟩
  | bool value =>
      cases value with
      | true => exact ⟨_, readsBack_integer rfl (rendered_of_sends (sends_integer 1))⟩
      | false => exact ⟨_, readsBack_integer rfl (rendered_of_sends (sends_integer 0))⟩
  | line oneLine =>
      refine ⟨.simple _, readsBack_of_flat rfl (rendered_of_sends (sends_line oneLine.2)) ?_⟩
      exact fun depth _ => read_simple depth (plain_iff_oneLine.mpr oneLine)
  | lines feed ascii =>
      refine ⟨_, readsBack_bulk rfl ?_⟩
      rw [rendered_of_sends (sends_lines feed), length_utf8_eq_iff.mpr ascii]
  | bytes data => exact ⟨_, readsBack_bulk rfl (rendered_of_sends (sends_bulkbytes data))⟩
  | other ascii =>
      refine ⟨_, readsBack_bulk rfl ?_⟩
      rw [length_utf8_eq_iff.mpr ascii]
      exact rendered_of_sends (sends_bulk _)
  | @list items _ induction =>
      obtain ⟨replies, mean, many⟩ := readMany_of_readsBack induction
      have sent : rendered (.list items) = _ :=
        rendered_of_sends (sends_list fun item _ => sends_rendered item)
      refine ⟨.array replies, ?_, ?_⟩
      · rw [datum_list, ← mean]
        rfl
      · intro depth rest enough
        rw [sent] at enough ⊢
        obtain ⟨less, rfl⟩ : ∃ less, depth = less + 1 := by
          rw [List.cons_append, List.cons_append, List.length_cons] at enough
          exact ⟨depth - 1, by omega⟩
        simp only [List.cons_append, List.length_cons, List.length_append] at enough
        rw [List.append_assoc]
        exact read_array less (many less rest (by omega))

/-! ### What can only be read of a framed value -/

theorem framed_of_bulk {depth : Nat} {text : String} {input rest : Bytes} {reply : Reply}
    (found : read depth (36 :: spellNat text.length ++ CRLF ++ input) = some (reply, rest))
    (means : replyDatum reply = .bytes (utf8 text)) : Ascii text := by
  cases depth with
  | zero => cases found
  | succ depth =>
      obtain ⟨data, rfl, length⟩ := of_read_bulk found
      cases means
      exact length_utf8_eq_iff.mp length

theorem framed_of_readMany {depth : Nat} {items : List Value}
    (framed : ∀ item ∈ items, ∀ rest reply after,
      read depth (rendered item ++ rest) = some (reply, after) →
        replyDatum reply = item.datum → item.Framed)
    {rest after : Bytes} {replies : List Reply}
    (found : readMany (read depth) items.length (items.flatMap rendered ++ rest) =
      some (replies, after))
    (mean : replyDatums replies = Value.datums items) : ∀ item ∈ items, item.Framed := by
  induction items generalizing rest replies with
  | nil => exact fun _ member => nomatch member
  | cons item items induction =>
      obtain ⟨first, framed⟩ := List.forall_mem_cons.mp framed
      rw [List.flatMap_cons, List.length_cons, List.append_assoc] at found
      obtain ⟨⟨reply, between⟩, one, more⟩ := Option.bind_eq_some_iff.mp found
      obtain ⟨⟨others, behind⟩, several, same⟩ := Option.bind_eq_some_iff.mp more
      cases same
      obtain ⟨head, tail⟩ := List.cons.inj mean
      have headFramed := first _ reply between one head
      obtain ⟨other, _, back⟩ := readsBack_of_framed headFramed
      have deep := back (depth + (rendered item).length) (items.flatMap rendered ++ rest)
        (Nat.le_add_left _ _)
      rw [read_mono (Nat.le_add_right _ _) one] at deep
      cases deep
      exact List.forall_mem_cons.mpr ⟨headFramed, induction framed several tail⟩

/-- A value that is read from what is sent for it is framed. -/
theorem framed_of_read {value : Value} : ∀ {depth rest reply after},
    read depth (rendered value ++ rest) = some (reply, after) →
      replyDatum reply = value.datum → value.Framed := by
  induction value using Value.induction with
  | flat value notList =>
      intro depth rest reply after found means
      cases value with
      | none => exact .none
      | int value => exact .int value
      | bool value => exact .bool value
      | str text =>
          by_cases feed : '\n' ∈ text.toList
          · rw [rendered_of_sends (sends_lines feed), List.append_assoc] at found
            exact .lines feed (framed_of_bulk found means)
          · rw [rendered_of_sends (sends_line feed)] at found
            cases depth with
            | zero => cases found
            | succ depth =>
                obtain ⟨line, rfl, plain, _⟩ := of_read_simple found
                cases means
                exact .line (plain_iff_oneLine.mp plain)
      | bytes data => exact .bytes data
      | list items => exact absurd rfl (notList items)
      | other repr =>
          have sent : rendered (.other repr) = _ := rendered_of_sends (sends_bulk repr)
          rw [sent, List.append_assoc] at found
          exact .other (framed_of_bulk found means)
  | list items induction =>
      intro depth rest reply after found means
      rw [rendered_of_sends (sends_list fun item _ => sends_rendered item),
        List.append_assoc] at found
      cases depth with
      | zero => cases found
      | succ depth =>
          obtain ⟨replies, rfl, many⟩ := of_read_array found
          rw [datum_list] at means
          refine .list (framed_of_readMany ?_ many (Datum.array.inj means))
          intro item member rest reply after
          exact induction item (mem_of_mem_unmarked member)

/-! ### Replies -/

theorem writesReply_of_sends {call : RedisResponseWriter → RedisResponseWriter} {bytes : Bytes}
    {fits : Reply → Prop} (sends : Sends call bytes) :
    WritesReply call fits ↔ ∃ reply, decode bytes = some reply ∧ fits reply := by
  constructor
  · intro writes
    obtain ⟨written, same, reads⟩ := writes []
    have equal := (sends ⟨[], []⟩).symm.trans same
    cases equal
    exact reads
  · rintro reads sent
    exact ⟨bytes, sends ⟨sent, []⟩, reads⟩

theorem writesReply_encode_iff (value : Value) :
    WritesReply (fun writer => writer.encode value)
      (fun reply => replyDatum reply = value.datum) ↔ value.Framed := by
  rw [writesReply_of_sends (sends_rendered value)]
  constructor
  · rintro ⟨reply, decoded, means⟩
    have found := decode_eq_some_iff.mp decoded
    rw [← List.append_nil (rendered value)] at found
    exact framed_of_read found means
  · intro framed
    obtain ⟨reply, means, back⟩ := readsBack_of_framed framed
    refine ⟨reply, decode_eq_some_iff.mpr ?_, means⟩
    rw [← back _ [] (Nat.le_succ _), List.append_nil]

theorem sends_error (msg : String) :
    Sends (fun writer => writer.error msg) (45 :: utf8 ("ERR " ++ msg) ++ CRLF) := by
  intro writer
  have bytes : utf8 ("-ERR " ++ msg ++ "\r\n") = 45 :: utf8 ("ERR " ++ msg) ++ CRLF := by
    rw [utf8_append, utf8_append, utf8_append]
    rfl
  rw [← bytes]
  rfl

theorem sends_status (msg : String) :
    Sends (fun writer => writer.status msg) (43 :: utf8 msg ++ CRLF) := by
  intro writer
  have bytes : utf8 ("+" ++ msg ++ "\r\n") = 43 :: utf8 msg ++ CRLF := by
    rw [utf8_append, utf8_append]
    rfl
  rw [← bytes]
  rfl

/-- A message is one error reply when it stands on one line. -/
theorem writesReply_error_iff (msg : String) :
    WritesReply (fun writer => writer.error msg)
      (fun reply => ∃ line, reply = .error line) ↔ OneLine msg := by
  have kept : OneLine ("ERR " ++ msg) ↔ OneLine msg := by
    simp [OneLine]
  rw [writesReply_of_sends (sends_error msg), ← kept, ← plain_iff_oneLine]
  constructor
  · rintro ⟨reply, decoded, _⟩
    obtain ⟨line, _, plain, same⟩ := of_read_error (decode_eq_some_iff.mp decoded)
    rw [List.append_nil] at same
    rw [List.append_cancel_right same]
    exact plain
  · intro plain
    have found : read (_ + 1) (45 :: utf8 ("ERR " ++ msg) ++ CRLF ++ []) = some (_, []) :=
      read_error (45 :: utf8 ("ERR " ++ msg) ++ CRLF).length plain
    rw [List.append_nil] at found
    exact ⟨_, decode_eq_some_iff.mpr found, _, rfl⟩

theorem writesReply_status_iff (msg : String) :
    WritesReply (fun writer => writer.status msg)
      (fun reply => ∃ line, reply = .simple line) ↔ OneLine msg := by
  rw [writesReply_of_sends (sends_status msg), ← plain_iff_oneLine]
  constructor
  · rintro ⟨reply, decoded, _⟩
    obtain ⟨line, _, plain, same⟩ := of_read_simple (decode_eq_some_iff.mp decoded)
    rw [List.append_nil] at same
    rw [List.append_cancel_right same]
    exact plain
  · intro plain
    have found : read (_ + 1) (43 :: utf8 msg ++ CRLF ++ []) = some (_, []) :=
      read_simple (43 :: utf8 msg ++ CRLF).length plain
    rw [List.append_nil] at found
    exact ⟨_, decode_eq_some_iff.mpr found, _, rfl⟩

/-- The writer sends one reply that reads as the value exactly for framed
values, and one error or status exactly for messages on one line. -/
theorem writesReplies_iff (value : Value) (msg : String) :
    (WritesReply (fun writer => writer.encode value)
      (fun reply => replyDatum reply = value.datum) ↔ value.Framed) ∧
    (WritesReply (fun writer => writer.error msg)
      (fun reply => ∃ line, reply = .error line) ↔ OneLine msg) ∧
    (WritesReply (fun writer => writer.status msg)
      (fun reply => ∃ line, reply = .simple line) ↔ OneLine msg) :=
  ⟨writesReply_encode_iff value, writesReply_error_iff msg, writesReply_status_iff msg⟩

/-- The two characters of this text are three bytes. -/
theorem not_writesReplies_lines :
    ¬ ∀ value : Value, WritesReply (fun writer => writer.encode value)
      (fun reply => replyDatum reply = value.datum) := by
  intro claim
  have feed : '\n' ∈ "é\n".toList := by decide
  obtain ⟨reply, decoded, _⟩ :=
    (writesReply_of_sends (sends_lines feed)).mp (claim (.str "é\n"))
  have bytes : decode (36 :: spellNat "é\n".length ++ CRLF ++ (utf8 "é\n" ++ CRLF)) = none := by
    decide
  rw [bytes] at decoded
  cases decoded

end Gedis

end JumpscaleX
