import Mathlib.Data.Rat.Defs
import Mathlib.Algebra.Order.Ring.Unbundled.Rat
import JumpscaleX.Library.Stateful

/-!
# Values, errors and property types

The values that the properties of a JSX object hold, the exceptions the
database code raises, and the interface through which generated code uses a
type of `j.data.types`.  Floats are taken as exact rationals.
-/

namespace JumpscaleX

open Fallible

abbrev Url := String

/-- The hexadecimal md5 that identifies a schema text. -/
abbrev Md5 := String

/-- The bytes kept by a `NumericObject`: sign and type byte, currency byte,
and the four or eight value bytes. -/
structure NumericData where
  negative : Bool
  ttype : Nat
  curtype : Nat
  val : Rat
  deriving DecidableEq, Repr

/-- What reading a property yields, and what a data dict carries. -/
inductive PyVal where
  | none
  | bool (value : Bool)
  | int (value : Int)
  | float (value : Rat)
  | str (value : String)
  | bytes (value : List Nat)
  | numeric (data : NumericData)
  | enum (values : List String) (data : Nat)
  | list (items : List PyVal)
  | dict (items : List (String × PyVal))
  | jsx (md5 : Md5) (props : List (String × PyVal))

namespace PyVal

mutual

/-- Equality of two values, decided along their structure. -/
def same : PyVal → PyVal → Bool
  | .none, .none => true
  | .bool left, .bool right => decide (left = right)
  | .int left, .int right => decide (left = right)
  | .float left, .float right => decide (left = right)
  | .str left, .str right => decide (left = right)
  | .bytes left, .bytes right => decide (left = right)
  | .numeric left, .numeric right => decide (left = right)
  | .enum values data, .enum values' data' =>
      decide (values = values' ∧ data = data')
  | .list left, .list right => sameList left right
  | .dict left, .dict right => sameFields left right
  | .jsx md5 left, .jsx md5' right => decide (md5 = md5') && sameFields left right
  | _, _ => false

def sameList : List PyVal → List PyVal → Bool
  | [], [] => true
  | left :: lefts, right :: rights => same left right && sameList lefts rights
  | _, _ => false

def sameFields : List (String × PyVal) → List (String × PyVal) → Bool
  | [], [] => true
  | (name, left) :: lefts, (name', right) :: rights =>
      decide (name = name') && same left right && sameFields lefts rights
  | _, _ => false

end

mutual

theorem same_iff (left right : PyVal) : same left right = true ↔ left = right := by
  cases left with
  | list items =>
      cases right <;> simp [same]
      exact sameList_iff items _
  | dict items =>
      cases right <;> simp [same]
      exact sameFields_iff items _
  | jsx md5 props =>
      cases right <;> simp [same]
      rename_i props'
      intro _
      exact sameFields_iff props props'
  | _ => cases right <;> simp [same]

theorem sameList_iff (left right : List PyVal) :
    sameList left right = true ↔ left = right := by
  cases left with
  | nil => cases right <;> simp [sameList]
  | cons item items =>
      cases right with
      | nil => simp [sameList]
      | cons item' items' =>
          simp [sameList, same_iff item item', sameList_iff items items']

theorem sameFields_iff (left right : List (String × PyVal)) :
    sameFields left right = true ↔ left = right := by
  cases left with
  | nil => cases right <;> simp [sameFields]
  | cons field fields =>
      obtain ⟨name, value⟩ := field
      cases right with
      | nil => simp [sameFields]
      | cons field' fields' =>
          obtain ⟨name', value'⟩ := field'
          simp [sameFields, same_iff value value', sameFields_iff fields fields']

end

instance : DecidableEq PyVal := fun left right =>
  decidable_of_iff (same left right = true) (same_iff left right)

/-- The number that a plain value compares as. -/
def number? : PyVal → Option Rat
  | .bool value => some (if value then 1 else 0)
  | .int value => some value
  | .float value => some value
  | _ => Option.none

/-- `==` on plain values: numbers compare by their value, everything else by
its structure. -/
def pyEq (left right : PyVal) : Bool :=
  match left.number?, right.number? with
  | some first, some second => decide (first = second)
  | _, _ => decide (left = right)

/-- The truth value of a plain value. -/
def truthy : PyVal → Bool
  | .none => false
  | .bool value => value
  | .int value => decide (value ≠ 0)
  | .float value => decide (value ≠ 0)
  | .str value => decide (value ≠ "")
  | .bytes value => !value.isEmpty
  | .list items => !items.isEmpty
  | .dict items => !items.isEmpty
  | _ => true

end PyVal

/-- What a column of a SQL table holds. -/
inductive Cell where
  | null
  | int (value : Int)
  | real (value : Rat)
  | text (value : String)
  | blob (value : List Nat)
  deriving DecidableEq

/-- A violated constraint of a SQL table. -/
inductive IntegrityError where
  | unique (column : String)
  | notNull (column : String)
  deriving DecidableEq

/-- The problems reported as `j.exceptions.Input`. -/
inductive InputError where
  /-- "could not save, was not unique." -/
  | notUnique (property : String)
  /-- "Could not insert object, unique constraint failed:" -/
  | constraintFailed (error : IntegrityError)
  /-- "an indexed (sql) field cannot be empty:" -/
  | emptyIndexedField (property : String)
  /-- "we could not find model from:... , was not in bcdb or j.data.schema" -/
  | schemaNotFound
  /-- "object readonly, cannot set." -/
  | readonlyObject
  /-- "cannot be . in property" -/
  | dotInProperty
  /-- Any other problem, by its text. -/
  | other (message : String)
  deriving DecidableEq

inductive Exn where
  | assertionError
  | attributeError (name : String)
  | keyError (key : String)
  | overflowError
  | valueError (message : String)
  | operationalError (message : String)
  | interfaceError (message : String)
  | integrityError (error : IntegrityError)
  | input (error : InputError)
  | base (message : String)
  | notFound (message : String)
  | jsBug (message : String)
  | typeError (message : String)
  | unboundLocalError (name : String)
  | timeout (message : String)
  | runtime (message : String)
  | indexError (message : String)
  | structError (message : String)
  deriving DecidableEq

/-- The errors by which a save reports that a value is not unique: the check
of `JSXObjectRoot.save` and the translated constraint of `BCDBModel.set`. -/
def Exn.reportsConflict : Exn → Bool
  | .input (.notUnique _) => true
  | .input (.constraintFailed (.unique _)) => true
  | _ => false

/-- The error reports no value as not unique. -/
abbrev Exn.Plain (problem : Exn) : Prop :=
  problem.reportsConflict = false

/-- A type object of `j.data.types`, through the operations that generated
code and the index use.  `capnpZero` is what the field of an empty message
holds, `columnValue` the value written to an indexed column, and
`freshChanged` tells whether the value read from an empty message reports
itself as changed.  No type raises the errors of a save. -/
structure JSType where
  NAME : String
  clean : PyVal → Except Exn PyVal
  defaultGet : PyVal
  capnpZero : PyVal
  toData : PyVal → Except Exn PyVal
  datadict : PyVal → PyVal
  eq : PyVal → PyVal → Bool
  columnValue : PyVal → Except Exn Cell
  freshChanged : Bool
  cleanRaises : ∀ value, RaisesOnly Exn.Plain (clean value)
  toDataRaises : ∀ value, RaisesOnly Exn.Plain (toData value)
  columnValueRaises : ∀ value, RaisesOnly Exn.Plain (columnValue value)

end JumpscaleX
