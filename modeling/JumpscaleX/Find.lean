import JumpscaleX.Library.JointTests
import JumpscaleX.BCDBModel
import JumpscaleX.RedisServer

/-!
# Finding objects by their indexed properties

`_find_query` puts a statement together from a where clause, a limit and an
offset, each only when Python takes it as true, and SQL compares the given
values with the columns.  `find` is compared with a scan that compares them
with the properties of the objects, as the types do.
-/

namespace JumpscaleX

open Fallible BCDBModel

/-! ## Types of indexed properties -/

/-- An indexable type: whether its column is numeric, what its properties hold,
what is given for one in a query, the value that the index reads, and `==`. -/
structure IndexedType where
  numeric : Bool
  Fits : PyVal → Prop
  Own : PyVal → Prop
  default : PyVal
  columnValue : PyVal → Cell
  eq : PyVal → PyVal → Bool
  fitsDefault : Fits default
  ownBinds : ∀ value, Own value → ∃ cell, bindValue value = .ok cell

/-- The number that SQL reads a text as, which a numeric column is compared
with. -/
def sqlNumber (text : String) : Option Rat :=
  match StringType.strip StringType.isSpace text.toList with
  | '-' :: chars => (decimal chars).map (fun number => -number)
  | '+' :: chars => decimal chars
  | chars => decimal chars
where
  digits (chars : List Char) : Rat :=
    Nat.ofDigitChars 10 (chars.takeWhile Char.isDigit) 0
  /-- Digits with a fraction and an exponent. -/
  decimal (chars : List Char) : Option Rat :=
    match chars.dropWhile Char.isDigit with
    | '.' :: behind =>
        let fraction := behind.takeWhile Char.isDigit
        if (chars.takeWhile Char.isDigit).isEmpty ∧ fraction.isEmpty then none
        else
          exponent (digits chars + digits behind / 10 ^ fraction.length)
            (behind.dropWhile Char.isDigit)
    | behind =>
        if (chars.takeWhile Char.isDigit).isEmpty then none
        else exponent (digits chars) behind
  exponent (number : Rat) : List Char → Option Rat
    | [] => some number
    | sign :: behind =>
        if sign ≠ 'e' ∧ sign ≠ 'E' then none
        else
          match behind with
          | '-' :: chars => (power chars).map (fun power => number / 10 ^ power)
          | '+' :: chars => (power chars).map (fun power => number * 10 ^ power)
          | chars => (power chars).map (fun power => number * 10 ^ power)
  power (chars : List Char) : Option Nat :=
    if chars.isEmpty ∨ ¬ chars.all Char.isDigit then none
    else some (Nat.ofDigitChars 10 chars 0)

namespace IndexedType

/-- A text that is compared with a numeric column counts as a number when it
can be read as one. -/
def applyAffinity (numeric : Bool) : Cell → Cell
  | .text text =>
      if numeric then
        match sqlNumber text with
        | some number => .real number
        | none => .text text
      else .text text
  | cell => cell

/-- `column = ?` for a value of the property and the one that is given. -/
def sqlCompare (type : IndexedType) (value given : PyVal) : Bool :=
  match bindValue given with
  | .ok cell => sqlEq (type.columnValue value) (applyAffinity type.numeric cell)
  | .error _ => false

/-- SQL compares the given value with the columns like the type does with the
properties. -/
def ComparedAlike (type : IndexedType) (given : PyVal) : Prop :=
  ∀ value, type.Fits value → type.sqlCompare value given = type.eq value given

/-- `String` properties hold cleaned texts. -/
def string : IndexedType where
  numeric := false
  Fits value := ∃ text, value = .str text ∧ StringType.cleanText text = .str text
  Own value := ∃ text, value = .str text
  default := .str ""
  columnValue
    | .str text => .text text
    | _ => .null
  eq := PyVal.pyEq
  fitsDefault := ⟨"", rfl, by decide⟩
  ownBinds := by
    rintro _ ⟨text, rfl⟩
    exact ⟨_, rfl⟩

/-- `Integer`, and `Date` and `DateTime`, whose properties hold an epoch. -/
def integer : IndexedType where
  numeric := true
  Fits value := ∃ number, value = .int number
  Own value := ∃ number, value = .int number
  default := .int 0
  columnValue
    | .int number => .int number
    | _ => .null
  eq := PyVal.pyEq
  fitsDefault := ⟨0, rfl⟩
  ownBinds := by
    rintro _ ⟨number, rfl⟩
    exact ⟨_, rfl⟩

def boolean : IndexedType where
  numeric := true
  Fits value := ∃ truth, value = .bool truth
  Own value := ∃ truth, value = .bool truth
  default := .bool false
  columnValue
    | .bool truth => .int (if truth then 1 else 0)
    | _ => .null
  eq := PyVal.pyEq
  fitsDefault := ⟨false, rfl⟩
  ownBinds := by
    rintro _ ⟨truth, rfl⟩
    exact ⟨_, rfl⟩

def float : IndexedType where
  numeric := true
  Fits value := ∃ number, value = .float number
  Own value := ∃ number, value = .float number
  default := .float 0
  columnValue
    | .float number => .real number
    | _ => .null
  eq := PyVal.pyEq
  fitsDefault := ⟨0, rfl⟩
  ownBinds := by
    rintro _ ⟨number, rfl⟩
    exact ⟨_, rfl⟩

/-- `value.upper().strip()` -/
def memberName (text : String) : String :=
  PyText.strip (String.ofList (text.toList.map Char.toUpper))

/-- `Enumeration`.  A property is equal to a name in any case, and the index
reads the name of its member. -/
def enumeration (first : String) (others : List String) : IndexedType where
  numeric := false
  Fits value := ∃ data, value = .enum ((first :: others).map memberName) data ∧
    data < others.length + 1
  Own value := ∃ text, value = .str text ∧ memberName text ∈ (first :: others).map memberName
  default := .enum ((first :: others).map memberName) 0
  columnValue
    | .enum values data => .text (values.getD data "")
    | _ => .null
  eq
    | .enum values data, .str text => decide (memberName text = values.getD data "")
    | _, _ => false
  fitsDefault := ⟨0, rfl, by omega⟩
  ownBinds := by
    rintro _ ⟨text, rfl, _⟩
    exact ⟨_, rfl⟩

/-- `Numeric`.  An amount is kept and compared by its value in USD, which
`usd` tells for the text or number that is given; nothing given is the
default. -/
def numericOf (usd : PyVal → Option Rat) (default : Rat) : IndexedType where
  numeric := true
  Fits value := ∃ number, value = .float number
  Own value := (usd value).isSome = true ∧ ((∃ text, value = .str text) ∨
    (∃ number, value = .int number) ∨ ∃ number, value = .float number)
  default := .float default
  columnValue
    | .float number => .real number
    | _ => .null
  eq
    | .float number, .none => decide (number = default)
    | .float number, given => decide (usd given = some number)
    | _, _ => false
  fitsDefault := ⟨default, rfl⟩
  ownBinds := by
    rintro _ ⟨_, ⟨text, rfl⟩ | ⟨number, rfl⟩ | ⟨number, rfl⟩⟩
    · exact ⟨_, rfl⟩
    · exact ⟨_, rfl⟩
    · exact ⟨_, rfl⟩

end IndexedType

/-! ## Models and their rows -/

/-- An indexed property, whose column has its name. -/
structure IndexedProperty where
  name : String
  type : IndexedType

/-- The indexed properties of a schema. -/
structure IndexedSchema where
  properties : List IndexedProperty
  distinct : (properties.map IndexedProperty.name).Nodup

namespace IndexedSchema

def property? (schema : IndexedSchema) (name : String) : Option IndexedProperty :=
  schema.properties.find? (fun prop => prop.name = name)

theorem property?_of_mem {schema : IndexedSchema} {prop : IndexedProperty}
    (member : prop ∈ schema.properties) : schema.property? prop.name = some prop := by
  cases found : schema.property? prop.name with
  | none =>
      have absent := List.find?_eq_none.mp found prop member
      simp at absent
  | some other =>
      have named : other.name = prop.name := by simpa using List.find?_some found
      have same : other = prop := List.inj_on_of_nodup_map schema.distinct
        (List.mem_of_find?_eq_some found) member named
      rw [same]

end IndexedSchema

/-- What the indexed properties of an object read. -/
structure IndexedObject (schema : IndexedSchema) where
  read : String → PyVal
  fits : ∀ prop ∈ schema.properties, prop.type.Fits (read prop.name)

/-- The columns of a row by their names. -/
abbrev IndexRow := List (String × Cell)

/-- The dict that `_sql_index_set` sends for an object. -/
def IndexedObject.row {schema : IndexedSchema} (obj : IndexedObject schema) : IndexRow :=
  schema.properties.map (fun prop => (prop.name, prop.type.columnValue (obj.read prop.name)))

/-- A model whose index agrees with the store: one row per object. -/
structure IndexedModel (schema : IndexedSchema) where
  objects : OrderedMap Nat (IndexedObject schema)
  rows : List (Nat × IndexRow)
  agrees : rows = objects.entries.map (fun entry => (entry.1, entry.2.row))

/-! ## The query -/

/-- The words that the SQL grammar does not let stand for a column. -/
def reservedWords : List String :=
  ["add", "all", "alter", "and", "as", "autoincrement", "between", "case", "check", "collate",
    "commit", "constraint", "create", "default", "deferrable", "delete", "distinct", "drop",
    "else", "escape", "except", "exists", "foreign", "from", "group", "having", "in", "index",
    "insert", "intersect", "into", "is", "isnull", "join", "limit", "not", "nothing", "notnull",
    "null", "on", "or", "order", "primary", "references", "returning", "select", "set", "table",
    "then", "to", "transaction", "union", "unique", "update", "using", "values", "when", "where"]

/-- The statement that `query_model` puts together: the keys of its where
clause, and its limit and offset clauses. -/
structure SelectStatement where
  whereKeys : List String
  limit : Option Nat
  offset : Option Nat

/-- A clause stands in the statement when its number is true, so not for 0. -/
def queryModel (whereKeys : List String) (limit offset : Option Nat) : SelectStatement where
  whereKeys := whereKeys
  limit := limit.filter (· ≠ 0)
  offset := offset.filter (· ≠ 0)

/-- The statement is one of SQL, which has an offset only behind a limit. -/
def SelectStatement.isSql (statement : SelectStatement) : Bool :=
  statement.whereKeys.all (fun key => PyText.lower key ∉ reservedWords) &&
    (statement.offset.isNone || statement.limit.isSome)

/-- Skip the first ones and keep at most so many. -/
def window {α : Type} (limit offset : Option Nat) (items : List α) : List α :=
  match limit with
  | some limit => (items.drop (offset.getD 0)).take limit
  | none => items.drop (offset.getD 0)

namespace IndexedModel

variable {schema : IndexedSchema} (model : IndexedModel schema)

/-- A row satisfies `key = ?`. -/
def rowMatches (schema : IndexedSchema) (row : IndexRow) (item : String × Cell) : Bool :=
  match schema.property? item.1, row.lookup item.1 with
  | some prop, some cell => sqlEq cell (IndexedType.applyAffinity prop.type.numeric item.2)
  | _, _ => false

/-- `execute_sql` of a select, with the values for its where clause. -/
def executeSql (statement : SelectStatement) (values : List (String × Cell)) :
    Except Exn (List (Nat × IndexRow)) := do
  ensure statement.isSql (.operationalError "syntax error")
  ensure (∀ key ∈ statement.whereKeys, key ∈ schema.properties.map IndexedProperty.name)
    (.operationalError "no such column")
  return window statement.limit statement.offset
    (model.rows.filter (fun entry => values.all (rowMatches schema entry.2)))

def findQuery (limit offset : Option Nat) (kwargs : DataDict) :
    Except Exn (List (Nat × IndexRow)) := do
  let values ← kwargs.mapM bindItem
  model.executeSql (queryModel (kwargs.map Prod.fst) limit offset) values

def findIds (limit offset : Option Nat) (kwargs : DataDict) : Except Exn (List Nat) := do
  let rows ← model.findQuery limit offset kwargs
  return rows.map Prod.fst

/-- `find`.  An id without an object is passed over. -/
def find (limit offset : Option Nat) (kwargs : DataDict) :
    Except Exn (List (IndexedObject schema)) := do
  let ids ← model.findIds limit offset kwargs
  return ids.filterMap model.objects.lookup

def count (kwargs : DataDict) : Except Exn Nat := do
  let rows ← model.findQuery none none kwargs
  return rows.length

end IndexedModel

/-- The arguments of `find`: for indexed properties, values of their types or
`None`, a limit and an offset. -/
structure FindArguments (schema : IndexedSchema) where
  kwargs : DataDict
  limit : Option Nat
  offset : Option Nat
  distinct : (kwargs.map Prod.fst).Nodup
  indexed : ∀ item ∈ kwargs, ∃ prop ∈ schema.properties, prop.name = item.1 ∧
    (item.2 = .none ∨ prop.type.Own item.2)

/-! ## The scan -/

/-- The property of an object passes a comparison with the value. -/
def IndexedObject.passes {schema : IndexedSchema} (obj : IndexedObject schema)
    (test : IndexedType → PyVal → PyVal → Bool) (item : String × PyVal) : Bool :=
  match schema.property? item.1 with
  | some prop => test prop.type (obj.read item.1) item.2
  | none => false

namespace IndexedModel

variable {schema : IndexedSchema} (model : IndexedModel schema)

/-- The objects whose properties are all equal to the given values, by their
ids. -/
def scan (arguments : FindArguments schema) : List (Nat × IndexedObject schema) :=
  model.objects.entries.filter (fun entry => arguments.kwargs.all (entry.2.passes IndexedType.eq))

/-- `find_ids`, `find` and `count` answer what a scan of the objects finds. -/
structure FindsByScan (arguments : FindArguments schema) : Prop where
  ids : model.findIds arguments.limit arguments.offset arguments.kwargs =
    .ok ((window arguments.limit arguments.offset (model.scan arguments)).map Prod.fst)
  objs : model.find arguments.limit arguments.offset arguments.kwargs =
    .ok ((window arguments.limit arguments.offset (model.scan arguments)).map Prod.snd)
  number : model.count arguments.kwargs = .ok (model.scan arguments).length

end IndexedModel

namespace FindArguments

variable {schema : IndexedSchema} (arguments : FindArguments schema)

/-- The given values by the type of their property. -/
def Given (type : IndexedType) (value : PyVal) : Prop :=
  ∃ prop ∈ schema.properties, prop.type = type ∧ (prop.name, value) ∈ arguments.kwargs

/-- No object has the given values: one of them is equal to no value of its
type, and one is equal to no column in SQL. -/
def MatchesNothing : Prop :=
  (∃ type given, arguments.Given type given ∧ ∀ value, type.Fits value →
      type.eq value given = false) ∧
    ∃ type given, arguments.Given type given ∧ ∀ value, type.Fits value →
      type.sqlCompare value given = false

/-- What `find` can be asked so that it finds what a scan finds. -/
structure Sound : Prop where
  words : ∀ item ∈ arguments.kwargs, PyText.lower item.1 ∉ reservedWords
  clauses : arguments.offset.getD 0 ≠ 0 → arguments.limit.getD 0 ≠ 0
  compared : arguments.MatchesNothing ∨
    (arguments.limit ≠ some 0 ∧
      ∀ type given, arguments.Given type given → type.ComparedAlike given)

end FindArguments

/-! ## The rows that a statement finds -/

theorem lookup_map_of_nodup {properties : List IndexedProperty} {prop : IndexedProperty}
    (distinct : (properties.map IndexedProperty.name).Nodup) (member : prop ∈ properties)
    (column : IndexedProperty → Cell) :
    (properties.map (fun prop => (prop.name, column prop))).lookup prop.name =
      some (column prop) := by
  induction properties with
  | nil => cases member
  | cons head rest induction =>
      rw [List.map_cons, List.nodup_cons] at distinct
      rw [List.map_cons, List.lookup_cons]
      rcases List.mem_cons.mp member with first | later
      · rw [first, beq_self_eq_true]
      · have different : prop.name ≠ head.name := by
          intro same
          exact distinct.1 (same ▸ List.mem_map_of_mem later)
        rw [beq_eq_false_iff_ne.mpr different]
        exact induction distinct.2 later

namespace IndexedModel

variable {schema : IndexedSchema} {model : IndexedModel schema}

theorem bindItem_ok {arguments : FindArguments schema} {item : String × PyVal}
    (member : item ∈ arguments.kwargs) :
    ∃ cell, bindValue item.2 = .ok cell ∧ bindItem item = .ok (item.1, cell) := by
  have bound : ∃ cell, bindValue item.2 = .ok cell := by
    obtain ⟨prop, _, _, given | own⟩ := arguments.indexed item member
    · exact ⟨.null, by rw [given]; rfl⟩
    · exact prop.type.ownBinds item.2 own
  obtain ⟨cell, bound⟩ := bound
  exact ⟨cell, bound, by rw [bindItem, bound]; rfl⟩

/-- The where clause on the row of an object compares the properties of the
object with the given values. -/
theorem rowMatches_row {obj : IndexedObject schema} {item : String × PyVal} {cell : Cell}
    (bound : bindValue item.2 = .ok cell) :
    rowMatches schema obj.row (item.1, cell) = obj.passes IndexedType.sqlCompare item := by
  unfold rowMatches IndexedObject.passes
  cases found : schema.property? item.1 with
  | none => rfl
  | some prop =>
      have named : prop.name = item.1 := by simpa using List.find?_some found
      have column := lookup_map_of_nodup schema.distinct (List.mem_of_find?_eq_some found)
        (fun prop => prop.type.columnValue (obj.read prop.name))
      rw [named] at column
      have row : obj.row.lookup item.1 = some (prop.type.columnValue (obj.read item.1)) := column
      simp only [row, IndexedType.sqlCompare, bound]

theorem mapM_bindItem {kwargs : DataDict}
    (binds : ∀ item ∈ kwargs, ∃ cell, bindValue item.2 = .ok cell ∧
      bindItem item = .ok (item.1, cell)) :
    ∃ values, kwargs.mapM bindItem = .ok values ∧ ∀ obj : IndexedObject schema,
      values.all (rowMatches schema obj.row) =
        kwargs.all (obj.passes IndexedType.sqlCompare) := by
  induction kwargs with
  | nil => exact ⟨[], rfl, fun _ => rfl⟩
  | cons item rest induction =>
      obtain ⟨cell, bound, here⟩ := binds item List.mem_cons_self
      obtain ⟨values, later, same⟩ :=
        induction (fun other member => binds other (List.mem_cons_of_mem _ member))
      refine ⟨(item.1, cell) :: values, ?_, ?_⟩
      · simp [List.mapM_cons, here, later, bind, Except.bind, pure, Except.pure]
      · intro obj
        rw [List.all_cons, List.all_cons, rowMatches_row bound, same]

theorem map_window {α β : Type} (limit offset : Option Nat) (change : α → β)
    (items : List α) :
    (window limit offset items).map change = window limit offset (items.map change) := by
  cases limit with
  | none => simp [window, List.map_drop]
  | some limit => simp [window, List.map_drop, List.map_take]

/-- The objects that SQL finds, by their ids. -/
def sqlScan (model : IndexedModel schema) (kwargs : DataDict) :
    List (Nat × IndexedObject schema) :=
  model.objects.entries.filter (fun entry =>
    kwargs.all (entry.2.passes IndexedType.sqlCompare))

/-- What the statement finds, or the error when it is none of SQL. -/
theorem findQuery_eq (arguments : FindArguments schema) (limit offset : Option Nat) :
    model.findQuery limit offset arguments.kwargs =
      if (queryModel (arguments.kwargs.map Prod.fst) limit offset).isSql then
        .ok ((window (limit.filter (· ≠ 0)) (offset.filter (· ≠ 0))
          (model.sqlScan arguments.kwargs)).map (fun entry => (entry.1, entry.2.row)))
      else .error (.operationalError "syntax error") := by
  obtain ⟨values, bound, same⟩ := @mapM_bindItem schema arguments.kwargs
    (fun item member => bindItem_ok member)
  have columns : ∀ key ∈ (queryModel (arguments.kwargs.map Prod.fst) limit offset).whereKeys,
      key ∈ schema.properties.map IndexedProperty.name := by
    intro key member
    obtain ⟨item, itemMember, named⟩ := List.mem_map.mp member
    obtain ⟨prop, propMember, propName, _⟩ := arguments.indexed item itemMember
    exact List.mem_map.mpr ⟨prop, propMember, propName.trans named⟩
  have rows : model.rows.filter (fun entry => values.all (rowMatches schema entry.2)) =
      (model.sqlScan arguments.kwargs).map (fun entry => (entry.1, entry.2.row)) := by
    rw [model.agrees, List.filter_map, sqlScan]
    congr 1
    apply List.filter_congr
    intro entry _
    exact same entry.2
  rw [findQuery, bound]
  change model.executeSql _ values = _
  unfold executeSql
  cases sql : (queryModel (arguments.kwargs.map Prod.fst) limit offset).isSql with
  | false =>
      rw [ensure_of_not (by simp)]
      rfl
  | true =>
      rw [ensure_of rfl]
      change (ensure (∀ key ∈ _, _) _ >>= _) = _
      rw [ensure_of columns, if_pos rfl, map_window, ← rows]
      rfl

theorem lookup_entries (map : OrderedMap Nat (IndexedObject schema))
    {entries : List (Nat × IndexedObject schema)}
    (within : ∀ entry ∈ entries, entry ∈ map.entries) :
    (entries.map Prod.fst).filterMap map.lookup = entries.map Prod.snd := by
  induction entries with
  | nil => rfl
  | cons entry rest induction =>
      have found : map.lookup entry.1 = some entry.2 :=
        OrderedMap.lookup_eq_some_iff.mpr (within entry List.mem_cons_self)
      rw [List.map_cons, List.filterMap_cons_some found, List.map_cons,
        induction (fun other member => within other (List.mem_cons_of_mem _ member))]

theorem mem_of_mem_window {α : Type} {limit offset : Option Nat} {items : List α} {item : α}
    (member : item ∈ window limit offset items) : item ∈ items := by
  unfold window at member
  split at member
  · exact List.mem_of_mem_drop (List.mem_of_mem_take member)
  · exact List.mem_of_mem_drop member

/-- What `find_ids` and `find` answer. -/
theorem find_eq (arguments : FindArguments schema) (limit offset : Option Nat)
    (sql : (queryModel (arguments.kwargs.map Prod.fst) limit offset).isSql = true) :
    model.findIds limit offset arguments.kwargs =
        .ok ((window (limit.filter (· ≠ 0)) (offset.filter (· ≠ 0))
          (model.sqlScan arguments.kwargs)).map Prod.fst) ∧
      model.find limit offset arguments.kwargs =
        .ok ((window (limit.filter (· ≠ 0)) (offset.filter (· ≠ 0))
          (model.sqlScan arguments.kwargs)).map Prod.snd) := by
  have ids : model.findIds limit offset arguments.kwargs =
      .ok ((window (limit.filter (· ≠ 0)) (offset.filter (· ≠ 0))
        (model.sqlScan arguments.kwargs)).map Prod.fst) := by
    rw [findIds, findQuery_eq, if_pos sql]
    simp only [bind, Except.bind, pure, Except.pure, List.map_map]
    rfl
  refine ⟨ids, ?_⟩
  rw [find, ids]
  change Except.ok _ = _
  rw [lookup_entries]
  intro entry member
  exact List.mem_of_mem_filter (mem_of_mem_window member)

theorem count_eq (arguments : FindArguments schema)
    (sql : (queryModel (arguments.kwargs.map Prod.fst) none none).isSql = true) :
    model.count arguments.kwargs = .ok (model.sqlScan arguments.kwargs).length := by
  rw [count, findQuery_eq, if_pos sql]
  simp [bind, Except.bind, pure, Except.pure, window]

theorem getD_filter (offset : Option Nat) :
    (offset.filter (· ≠ 0)).getD 0 = offset.getD 0 := by
  cases offset with
  | none => rfl
  | some offset => by_cases zero : offset = 0 <;> simp [Option.filter, zero]

/-- The clauses that 0 leaves out make no difference but for a limit of 0. -/
theorem window_filter {α : Type} {limit offset : Option Nat} {items : List α}
    (positive : limit ≠ some 0 ∨ items = []) :
    window (limit.filter (· ≠ 0)) (offset.filter (· ≠ 0)) items =
      window limit offset items := by
  rcases positive with positive | nothing
  · cases limit with
    | none => simp only [Option.filter_none, window, getD_filter]
    | some limit =>
        have different : limit ≠ 0 := fun zero => positive (by rw [zero])
        have kept : (some limit).filter (· ≠ 0) = some limit := by
          simp [Option.filter, different]
        rw [kept]
        simp only [window, getD_filter]
  · rw [nothing]
    cases limit with
    | none => simp [window]
    | some limit => by_cases zero : limit = 0 <;> simp [Option.filter, zero, window]

end IndexedModel

/-! ## When `find` finds what a scan finds -/

namespace FindArguments

variable {schema : IndexedSchema} {arguments : FindArguments schema}

theorem isSql_iff {limit offset : Option Nat} :
    (queryModel (arguments.kwargs.map Prod.fst) limit offset).isSql = true ↔
      (∀ item ∈ arguments.kwargs, PyText.lower item.1 ∉ reservedWords) ∧
        (offset.getD 0 ≠ 0 → limit.getD 0 ≠ 0) := by
  have words : (queryModel (arguments.kwargs.map Prod.fst) limit offset).whereKeys.all
      (fun key => PyText.lower key ∉ reservedWords) = true ↔
        ∀ item ∈ arguments.kwargs, PyText.lower item.1 ∉ reservedWords := by
    simp [queryModel]
  rw [SelectStatement.isSql, Bool.and_eq_true, words, and_congr_right_iff]
  intro _
  cases limit with
  | none => cases offset <;> simp [queryModel, Option.filter]
  | some limit =>
      cases offset with
      | none => simp [queryModel]
      | some offset =>
          by_cases zero : limit = 0 <;> by_cases none : offset = 0 <;>
            simp [queryModel, Option.filter, zero, none]

/-- The values that fit the property of a name. -/
def FitsAt (schema : IndexedSchema) (key : String) (value : PyVal) : Prop :=
  ∀ prop ∈ schema.properties, prop.name = key → prop.type.Fits value

variable (arguments) in
/-- A value passes the comparison with the one that is given for a name. -/
def PassesAt (test : IndexedType → PyVal → PyVal → Bool) (key : String) (value : PyVal) :
    Prop :=
  ∀ prop ∈ schema.properties, prop.name = key →
    ∀ given, (key, given) ∈ arguments.kwargs → test prop.type value given = true

theorem property_unique {prop other : IndexedProperty} (member : prop ∈ schema.properties)
    (otherMember : other ∈ schema.properties) (named : prop.name = other.name) :
    prop = other :=
  List.inj_on_of_nodup_map schema.distinct member otherMember named

theorem given_unique {key : String} {given other : PyVal}
    (member : (key, given) ∈ arguments.kwargs) (otherMember : (key, other) ∈ arguments.kwargs) :
    given = other := by
  have same := List.inj_on_of_nodup_map arguments.distinct member otherMember rfl
  exact (Prod.mk.inj same).2

/-- An object passes all comparisons when its properties do. -/
theorem all_passes_iff {test : IndexedType → PyVal → PyVal → Bool}
    {obj : IndexedObject schema} :
    arguments.kwargs.all (obj.passes test) = true ↔
      ∀ key ∈ arguments.kwargs.map Prod.fst, arguments.PassesAt test key (obj.read key) := by
  rw [List.all_eq_true, List.forall_mem_map]
  constructor
  · intro all item member prop propMember named given givenMember
    have here := all _ givenMember
    have found : schema.property? item.1 = some prop := by
      rw [← named]
      exact IndexedSchema.property?_of_mem propMember
    rw [IndexedObject.passes] at here
    simp only [found] at here
    exact here
  · intro all item member
    obtain ⟨prop, propMember, named, _⟩ := arguments.indexed item member
    have found : schema.property? item.1 = some prop := by
      rw [← named]
      exact IndexedSchema.property?_of_mem propMember
    rw [IndexedObject.passes]
    simp only [found]
    exact all item member prop propMember named item.2 member

theorem fitsAt_inhabited (schema : IndexedSchema) (key : String) :
    ∃ value, FitsAt schema key value := by
  by_cases present : ∃ prop ∈ schema.properties, prop.name = key
  · obtain ⟨prop, member, named⟩ := present
    refine ⟨prop.type.default, ?_⟩
    intro other otherMember otherNamed
    rw [property_unique otherMember member (otherNamed.trans named.symm)]
    exact prop.type.fitsDefault
  · refine ⟨.none, ?_⟩
    intro prop member named
    exact (present ⟨prop, member, named⟩).elim

theorem blocks_iff {test : IndexedType → PyVal → PyVal → Bool} :
    JointTests.Blocks (arguments.kwargs.map Prod.fst) (FitsAt schema)
        (arguments.PassesAt test) ↔
      ∃ type given, arguments.Given type given ∧
        ∀ value, type.Fits value → test type value given = false := by
  constructor
  · rintro ⟨key, member, nothing⟩
    obtain ⟨⟨_, given⟩, givenMember, rfl⟩ := List.mem_map.mp member
    obtain ⟨prop, propMember, named, _⟩ := arguments.indexed _ givenMember
    refine ⟨prop.type, given, ⟨prop, propMember, rfl, by rw [named]; exact givenMember⟩, ?_⟩
    intro value fits
    rw [← Bool.not_eq_true]
    intro passes
    apply nothing value
    · intro other otherMember otherNamed
      rw [property_unique otherMember propMember (otherNamed.trans named.symm)]
      exact fits
    · intro other otherMember otherNamed otherGiven otherGivenMember
      rw [property_unique otherMember propMember (otherNamed.trans named.symm),
        given_unique otherGivenMember givenMember]
      exact passes
  · rintro ⟨_, given, ⟨prop, propMember, rfl, givenMember⟩, nothing⟩
    refine ⟨prop.name, List.mem_map_of_mem givenMember, ?_⟩
    intro value fits passes
    have here := passes prop propMember rfl given givenMember
    rw [nothing value (fits prop propMember rfl)] at here
    cases here

theorem comparedAlike_iff :
    (∀ key ∈ arguments.kwargs.map Prod.fst, ∀ value, FitsAt schema key value →
      (arguments.PassesAt IndexedType.eq key value ↔
        arguments.PassesAt IndexedType.sqlCompare key value)) ↔
      ∀ type given, arguments.Given type given → type.ComparedAlike given := by
  constructor
  · rintro alike _ given ⟨prop, propMember, rfl, givenMember⟩ value fits
    have fitsHere : FitsAt schema prop.name value := by
      intro other otherMember otherNamed
      rw [property_unique otherMember propMember otherNamed]
      exact fits
    have passesIff : ∀ test : IndexedType → PyVal → PyVal → Bool,
        arguments.PassesAt test prop.name value ↔ test prop.type value given = true := by
      intro test
      constructor
      · intro passes
        exact passes prop propMember rfl given givenMember
      · intro passes other otherMember otherNamed otherGiven otherGivenMember
        rw [property_unique otherMember propMember otherNamed,
          given_unique otherGivenMember givenMember]
        exact passes
    have same := alike prop.name (List.mem_map_of_mem givenMember) value fitsHere
    rw [passesIff, passesIff] at same
    exact (Bool.eq_iff_iff.mpr same).symm
  · intro alike key _ value fits
    apply forall₂_congr
    intro prop propMember
    apply forall_congr'
    intro named
    apply forall₂_congr
    intro given givenMember
    rw [alike prop.type given ⟨prop, propMember, rfl, by rw [named]; exact givenMember⟩ value
      (fits prop propMember named)]

/-- A model without objects. -/
def noObjects (schema : IndexedSchema) : IndexedModel schema :=
  ⟨.empty, [], rfl⟩

/-- A model with one object. -/
def oneObject (obj : IndexedObject schema) : IndexedModel schema :=
  ⟨OrderedMap.empty.insert 1 obj, [(1, obj.row)], rfl⟩

theorem sqlScan_oneObject (obj : IndexedObject schema) (kwargs : DataDict) :
    (oneObject obj).sqlScan kwargs =
      if kwargs.all (obj.passes IndexedType.sqlCompare) then [(1, obj)] else [] := by
  change [(1, obj)].filter _ = _
  rw [List.filter_cons, List.filter_nil]

theorem scan_oneObject (obj : IndexedObject schema) :
    (oneObject obj).scan arguments =
      if arguments.kwargs.all (obj.passes IndexedType.eq) then [(1, obj)] else [] := by
  change [(1, obj)].filter _ = _
  rw [List.filter_cons, List.filter_nil]

/-- An object that reads the values of a record. -/
def objectOf {record : String → PyVal} (fits : ∀ key, FitsAt schema key (record key)) :
    IndexedObject schema :=
  ⟨record, fun prop member => fits prop.name prop member rfl⟩

theorem agree_of_findsByScan
    (finds : ∀ model : IndexedModel schema, model.FindsByScan arguments)
    (sql : (queryModel (arguments.kwargs.map Prod.fst) none none).isSql = true) :
    JointTests.Agree (arguments.kwargs.map Prod.fst) (FitsAt schema)
      (arguments.PassesAt IndexedType.eq) (arguments.PassesAt IndexedType.sqlCompare) := by
  intro record fits
  have number := (finds (oneObject (objectOf fits))).number
  rw [IndexedModel.count_eq arguments sql, sqlScan_oneObject, scan_oneObject] at number
  have passes : ∀ test : IndexedType → PyVal → PyVal → Bool,
      arguments.kwargs.all ((objectOf fits).passes test) = true ↔
        ∀ key ∈ arguments.kwargs.map Prod.fst, arguments.PassesAt test key (record key) :=
    fun test => all_passes_iff
  rw [← passes, ← passes]
  cases found : arguments.kwargs.all ((objectOf fits).passes IndexedType.sqlCompare) <;>
    cases scanned : arguments.kwargs.all ((objectOf fits).passes IndexedType.eq) <;>
      simp [found, scanned] at number ⊢

/-- With a limit of 0 nothing may match. -/
theorem limit_zero_blocks
    (finds : ∀ model : IndexedModel schema, model.FindsByScan arguments)
    (sql : (queryModel (arguments.kwargs.map Prod.fst) arguments.limit arguments.offset).isSql =
      true) (zero : arguments.limit = some 0) :
    JointTests.Blocks (arguments.kwargs.map Prod.fst) (FitsAt schema)
      (arguments.PassesAt IndexedType.sqlCompare) := by
  by_contra unblocked
  obtain ⟨record, fits, passes⟩ :=
    JointTests.exists_of_not_blocks (fitsAt_inhabited schema) unblocked
  have ids := (finds (oneObject (objectOf fits))).ids
  have all : arguments.kwargs.all ((objectOf fits).passes IndexedType.sqlCompare) = true :=
    all_passes_iff.mpr passes
  have noOffset : arguments.offset.getD 0 = 0 := by
    by_contra positive
    have limited := (isSql_iff.mp sql).2 positive
    rw [zero] at limited
    exact limited rfl
  have noLimit : (some 0 : Option Nat).filter (· ≠ 0) = none := rfl
  rw [(IndexedModel.find_eq arguments _ _ sql).1, sqlScan_oneObject, if_pos all, zero,
    noLimit] at ids
  simp only [window, IndexedModel.getD_filter, noOffset, List.drop_zero, List.take_zero,
    List.map_cons, List.map_nil, Except.ok.injEq] at ids
  cases ids

theorem FitsAt.of_object (obj : IndexedObject schema) (key : String) :
    FitsAt schema key (obj.read key) := by
  intro prop member named
  rw [← named]
  exact obj.fits prop member

/-- Sound arguments let SQL find what the scan finds. -/
theorem Sound.sqlScan_eq (sound : arguments.Sound) (model : IndexedModel schema) :
    model.sqlScan arguments.kwargs = model.scan arguments ∧
      (arguments.limit ≠ some 0 ∨ model.scan arguments = []) := by
  rcases sound.compared with ⟨nothing, nothingInSql⟩ | ⟨positive, alike⟩
  · have empty : model.scan arguments = [] := by
      rw [IndexedModel.scan, List.filter_eq_nil_iff]
      intro entry _ passes
      exact (blocks_iff.mpr nothing).not_all (FitsAt.of_object entry.2)
        (all_passes_iff.mp passes)
    have emptyInSql : model.sqlScan arguments.kwargs = [] := by
      rw [IndexedModel.sqlScan, List.filter_eq_nil_iff]
      intro entry _ passes
      exact (blocks_iff.mpr nothingInSql).not_all (FitsAt.of_object entry.2)
        (all_passes_iff.mp passes)
    exact ⟨emptyInSql.trans empty.symm, .inr empty⟩
  · refine ⟨?_, .inl positive⟩
    apply List.filter_congr
    intro entry _
    rw [Bool.eq_iff_iff, all_passes_iff, all_passes_iff]
    apply forall₂_congr
    intro key member
    exact (comparedAlike_iff.mpr alike key member _ (FitsAt.of_object entry.2 key)).symm

end FindArguments

/-! ## Which values SQL compares alike -/

namespace IndexedType

theorem string_comparedAlike (text : String) : string.ComparedAlike (.str text) := by
  rintro _ ⟨value, rfl, _⟩
  simp [sqlCompare, string, bindValue, applyAffinity, sqlEq, PyVal.pyEq, PyVal.number?]

theorem integer_comparedAlike (number : Int) : integer.ComparedAlike (.int number) := by
  rintro _ ⟨value, rfl⟩
  simp [sqlCompare, integer, bindValue, applyAffinity, sqlEq, PyVal.pyEq, PyVal.number?]

theorem boolean_comparedAlike (truth : Bool) : boolean.ComparedAlike (.bool truth) := by
  rintro _ ⟨value, rfl⟩
  cases truth <;> cases value <;> rfl

theorem float_comparedAlike (number : Rat) : float.ComparedAlike (.float number) := by
  rintro _ ⟨value, rfl⟩
  simp [sqlCompare, float, bindValue, applyAffinity, sqlEq, PyVal.pyEq, PyVal.number?]

/-- A member has to be given by the name that the index reads. -/
theorem enumeration_comparedAlike_iff {first : String} {others : List String} {text : String}
    (own : (enumeration first others).Own (.str text)) :
    (enumeration first others).ComparedAlike (.str text) ↔ memberName text = text := by
  have compared : ∀ data,
      (enumeration first others).sqlCompare
          (.enum ((first :: others).map memberName) data) (.str text) =
        decide (text = ((first :: others).map memberName).getD data "") ∧
      (enumeration first others).eq
          (.enum ((first :: others).map memberName) data) (.str text) =
        decide (memberName text = ((first :: others).map memberName).getD data "") := by
    intro data
    constructor
    · simp only [sqlCompare, enumeration, bindValue, applyAffinity, sqlEq, Cell.text.injEq,
        Bool.false_eq_true, if_false]
      rw [decide_eq_decide]
      exact eq_comm
    · simp only [enumeration]
  constructor
  · intro alike
    obtain ⟨_, same, member⟩ := own
    cases same
    obtain ⟨data, inside, here⟩ := List.getElem_of_mem member
    have named : ((first :: others).map memberName).getD data "" = memberName text := by
      rw [List.getD_eq_getElem?_getD, List.getElem?_eq_getElem inside, here]
      rfl
    have equal := alike _ ⟨data, rfl, by simpa using inside⟩
    rw [(compared data).1, (compared data).2, named, decide_eq_decide] at equal
    exact (equal.mpr rfl).symm
  · rintro same _ ⟨data, rfl, _⟩
    rw [(compared data).1, (compared data).2, same]

/-- The number that SQL takes a given amount for. -/
def sqlAmount : PyVal → Option Rat
  | .str text => sqlNumber text
  | .int number => some number
  | .float number => some number
  | _ => none

/-- An amount has to be given as SQL reads its value in USD. -/
theorem numericOf_comparedAlike_iff {usd : PyVal → Option Rat} {default : Rat} {given : PyVal}
    (own : (numericOf usd default).Own given) :
    (numericOf usd default).ComparedAlike given ↔ sqlAmount given = usd given := by
  have compared : ∀ number : Rat,
      (numericOf usd default).sqlCompare (.float number) given =
          decide (sqlAmount given = some number) ∧
        (numericOf usd default).eq (.float number) given =
          decide (usd given = some number) := by
    intro number
    refine ⟨?_, ?_⟩
    · rcases own.2 with ⟨text, rfl⟩ | ⟨whole, rfl⟩ | ⟨fraction, rfl⟩
      · cases read : sqlNumber text with
        | none => simp [sqlCompare, numericOf, bindValue, applyAffinity, sqlEq, sqlAmount, read]
        | some amount =>
            simp only [sqlCompare, numericOf, bindValue, applyAffinity, sqlEq, sqlAmount, read,
              if_true, Cell.real.injEq, Option.some.injEq, eq_comm (a := amount)]
      · simp only [sqlCompare, numericOf, bindValue, applyAffinity, sqlEq, sqlAmount,
          Option.some.injEq, eq_comm (a := number)]
      · simp only [sqlCompare, numericOf, bindValue, applyAffinity, sqlEq, sqlAmount,
          Cell.real.injEq, Option.some.injEq, eq_comm (a := fraction)]
    · rcases own.2 with ⟨text, rfl⟩ | ⟨whole, rfl⟩ | ⟨fraction, rfl⟩ <;> rfl
  constructor
  · intro alike
    have each : ∀ number, sqlAmount given = some number ↔ usd given = some number := by
      intro number
      have equal := alike (.float number) ⟨number, rfl⟩
      rw [(compared number).1, (compared number).2, decide_eq_decide] at equal
      exact equal
    exact Option.ext each
  · rintro same _ ⟨number, rfl⟩
    rw [(compared number).1, (compared number).2, same]

end IndexedType

/-! ## A limit of nothing -/

/-- The schema with the property `age** = (I)`. -/
def ages : IndexedSchema where
  properties := [⟨"age", .integer⟩]
  distinct := by simp

/-- `find(age=3, limit=0)` -/
def noneOfAge : FindArguments ages where
  kwargs := [("age", .int 3)]
  limit := some 0
  offset := none
  distinct := by simp
  indexed := by
    intro item member
    rw [List.mem_singleton] at member
    rw [member]
    exact ⟨⟨"age", .integer⟩, List.mem_singleton.mpr rfl, rfl, .inr ⟨3, rfl⟩⟩

/-- An object of this age. -/
def aged (age : Int) : IndexedObject ages where
  read _ := .int age
  fits := by
    intro prop member
    rw [ages, List.mem_singleton] at member
    rw [member]
    exact ⟨age, rfl⟩

end JumpscaleX
