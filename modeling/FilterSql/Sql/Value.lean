import FilterSql.Calendar.Date
import FilterSql.Json.Basic
import FilterSql.Uuid

/-!
# Bound values

The values that a statement's placeholders stand for.
-/

set_option autoImplicit false

namespace FilterSql.Sql

open Numeric (Double)

inductive Value where
  | null
  | bool (value : Bool)
  | int (value : Int)
  | float (value : Double)
  | text (value : String)
  | timestamp (value : Calendar.Timestamp)
  | date (value : Calendar.Date)
  | uuid (value : Uuid)
  | json (value : Json)
  | array (items : List Value)
  deriving Repr, Inhabited

def leastInt : Int := -9223372036854775808

def greatestInt : Int := 9223372036854775807

namespace Value

/-- The value of a scalar JSON literal. Integers beyond the bounds become floating-point numbers. -/
def ofLiteral : Json → Value
  | .null => null
  | .bool value => bool value
  | .number (.integer value) =>
    if leastInt ≤ value ∧ value ≤ greatestInt then int value else float (.ofInt value)
  | .number (.float value) => float value
  | other => json other

def isNull : Value → Bool
  | null => true
  | _ => false

mutual

/-- The value as JSON. An infinite number has no JSON and becomes null. -/
def toJson : Value → Json
  | null => .null
  | bool value => .bool value
  | int value => .number (.integer value)
  | float value => if value.isFinite then .number (.float value) else .null
  | text value => .string value
  | timestamp value => .string value.text
  | date value => .string value.text
  | uuid value => .string value.text
  | json value => value
  | array items => .array (itemsToJson items)

def itemsToJson : List Value → List Json
  | [] => []
  | item :: rest => toJson item :: itemsToJson rest

end

end Value

end FilterSql.Sql
