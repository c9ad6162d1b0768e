import FilterSql.Schema.RecordLiteral
import FilterSql.Schema.Resolve
import FilterSql.Sql.Builder

/-!
# Expressions as SQL

An expression is a JSON value. A list is an operation if it starts with the name of an operator, and else a cast of
one literal to a field. A string refers to a field. Any other scalar is a literal, which is bound and never written.
-/

set_option autoImplicit false

namespace FilterSql.Expr

open Schema (RecordType resolve)
open Sql (Page Writing)
open Sql.Writing (literal argument)

variable {ρ π : Type} [RecordType ρ] [Page π]

def decodeReference (schema : Option ρ) (name : String) : Writing π CompileError Unit := do
  let resolved ← ofExcept (resolve schema name)
  literal resolved.path.text

def castValue (schema : Option ρ) (name : String) : List Json → Except CompileError Sql.Value
  | [payload] => do
    let resolved ← resolve schema name
    (resolved.field.decode payload).mapError (.castDecodeFailure name resolved.field.typeName)
  | arguments => .error (.castArityMismatch name arguments.length)

def decodeCast (schema : Option ρ) (name : String) (arguments : List Json) : Writing π CompileError Unit := do
  let value ← ofExcept (castValue schema name arguments)
  let _ ← argument value

mutual

/-- Writes an expression that stands inside `depth` lists, at most `limit` of which may be open. -/
def decode (schema : Option ρ) (limit depth : Nat) : Json → Writing π CompileError Unit
  | .object members => throw (.unexpectedObject (.object members))
  | .string name => decodeReference schema name
  | .array items =>
    if limit < depth + 1 then throw (.tooDeep limit)
    else
      match items with
      | [] => throw .emptyList
      | .string name :: arguments =>
        match Operator.ofName? name with
        | some operator => decodeOperation schema limit (depth + 1) operator operator.form arguments
        | none => decodeCast schema name arguments
      | head :: _ => throw (.headNotString head)
  | scalar => do
    let _ ← argument (.ofLiteral scalar)

/-- Writes an operator around or between its operands. Nothing is written unless their number fits. -/
def decodeOperation (schema : Option ρ) (limit depth : Nat) (operator : Operator) :
    Form → List Json → Writing π CompileError Unit
  | .leading, [operand] => do
    literal "("
    literal operator.name
    decode schema limit depth operand
    literal ")"
  | .trailing, [operand] => do
    literal "("
    decode schema limit depth operand
    literal operator.name
    literal ")"
  | .joining, first :: second :: rest => do
    literal "("
    decode schema limit depth first
    decodeJoined schema limit depth operator (second :: rest)
    literal ")"
  | .membership, [value, array] => do
    literal "("
    decode schema limit depth value
    literal "="
    literal "any("
    decode schema limit depth array
    literal ")"
    literal ")"
  | .range, [value, lower, upper] => do
    literal "("
    decode schema limit depth value
    literal "between"
    decode schema limit depth lower
    literal "and"
    decode schema limit depth upper
    literal ")"
  | _, operands => throw (.arityMismatch operator operands.length)

/-- Writes operands with the operator before each of them. -/
def decodeJoined (schema : Option ρ) (limit depth : Nat) (operator : Operator) :
    List Json → Writing π CompileError Unit
  | [] => pure ()
  | operand :: rest => do
    literal operator.name
    decode schema limit depth operand
    decodeJoined schema limit depth operator rest

end

end FilterSql.Expr
