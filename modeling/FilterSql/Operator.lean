/-!
# Operators

The closed list of operators an expression may use, and the form in which each is written around its operands. A list
head that is not here is no operator.
-/

set_option autoImplicit false

namespace FilterSql

/-- Where an operator stands among its operands. -/
inductive Form where
  /-- The operator, then its operand. -/
  | leading
  /-- The operand, then the operator. -/
  | trailing
  /-- The operator between every two operands. -/
  | joining
  /-- A value among the elements of an array. -/
  | membership
  /-- A value from a lower to an upper bound. -/
  | range
  deriving DecidableEq, Repr

namespace Form

def name : Form → String
  | leading => "prefix"
  | trailing => "postfix"
  | joining => "infix"
  | membership => "any"
  | range => "between"

def admits (form : Form) (count : Nat) : Bool :=
  match form with
  | leading => count == 1
  | trailing => count == 1
  | joining => 2 ≤ count
  | membership => count == 2
  | range => count == 3

def arity : Form → String
  | leading => "exactly 1"
  | trailing => "exactly 1"
  | joining => "at least 2"
  | membership => "exactly 2"
  | range => "exactly 3"

end Form

inductive Operator where
  | and
  | or
  | not
  | isNull
  | isNotNull
  | isTrue
  | isNotTrue
  | isFalse
  | isNotFalse
  | isUnknown
  | isNotUnknown
  | isDistinctFrom
  | isNotDistinctFrom
  | equal
  | regex
  | regexAnyCase
  | sameAs
  | unequal
  | less
  | greater
  | greaterOrEqual
  | lessOrEqual
  | textSearch
  | any
  | between
  deriving DecidableEq, Repr

namespace Operator

def all : List Operator :=
  [and, or, not, isNull, isNotNull, isTrue, isNotTrue, isFalse, isNotFalse, isUnknown, isNotUnknown,
    isDistinctFrom, isNotDistinctFrom, equal, regex, regexAnyCase, sameAs, unequal, less, greater,
    greaterOrEqual, lessOrEqual, textSearch, any, between]

def name : Operator → String
  | and => "and"
  | or => "or"
  | not => "not"
  | isNull => "is null"
  | isNotNull => "is not null"
  | isTrue => "is true"
  | isNotTrue => "is not true"
  | isFalse => "is false"
  | isNotFalse => "is not false"
  | isUnknown => "is unknown"
  | isNotUnknown => "is not unknown"
  | isDistinctFrom => "is distinct from"
  | isNotDistinctFrom => "is not distinct from"
  | equal => "="
  | regex => "~"
  | regexAnyCase => "~*"
  | sameAs => "~="
  | unequal => "<>"
  | less => "<"
  | greater => ">"
  | greaterOrEqual => ">="
  | lessOrEqual => "<="
  | textSearch => "@@"
  | any => "any"
  | between => "between"

def form : Operator → Form
  | not => .leading
  | isNull | isNotNull | isTrue | isNotTrue | isFalse | isNotFalse | isUnknown | isNotUnknown => .trailing
  | any => .membership
  | between => .range
  | _ => .joining

def ofName? (name : String) : Option Operator :=
  all.find? fun operator => operator.name == name

theorem ofName?_name (operator : Operator) : ofName? operator.name = some operator := by
  cases operator <;> decide

theorem eq_name_of_ofName? {name : String} {operator : Operator} (known : ofName? name = some operator) :
    name = operator.name := by
  have same := List.find?_some known
  exact (eq_of_beq same).symm

end Operator

end FilterSql
