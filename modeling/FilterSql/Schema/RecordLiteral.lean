import FilterSql.Schema.Record

/-!
# Record literals

Literals cast to a field that holds a record: null, an object keyed by public names, or a list of such literals. They
are checked against the record type and bound as they are.
-/

set_option autoImplicit false

namespace FilterSql.Schema

open Sql (Value)

variable {ρ : Type} [RecordType ρ]

def maxLiteralNesting : Nat := 32

mutual

/-- Checks a literal against a record type, `depth` lists and records deep in the whole literal. -/
def checkLiteral (record : ρ) (depth : Nat) (literal : Json) : Except DecodeError Unit :=
  if maxLiteralNesting ≤ depth then .error .nestedTooDeeply
  else
    match literal with
    | .null => .ok ()
    | .array items => checkItems record (depth + 1) items
    | .object members => checkMembers record depth members
    | other => .error (.notAnObject (typeName record) other)

def checkItems (record : ρ) (depth : Nat) : List Json → Except DecodeError Unit
  | [] => .ok ()
  | item :: rest => do
    checkLiteral record depth item
    checkItems record depth rest

def checkMembers (record : ρ) (depth : Nat) : List (String × Json) → Except DecodeError Unit
  | [] => .ok ()
  | (name, value) :: rest => do
    match findField record name with
    | none => .error (.unknownMember name (typeName record))
    | some field =>
      match field.type, field.nested with
      | some type, _ => do
        let _ ← type.decode value
        checkMembers record depth rest
      | none, some nested => do
        checkLiteral nested (depth + 1) value
        checkMembers record depth rest
      | none, none => .error (.memberTakesNoLiterals name)

end

def decodeRecord (record : ρ) (literal : Json) : Except DecodeError Value :=
  if literal.isNull then .ok .null
  else do
    checkLiteral record 0 literal
    .ok (.json literal)

/-- The bound value of a literal cast to a field. -/
def Field.decode (field : Field ρ) (literal : Json) : Except DecodeError Value :=
  match field.type, field.nested with
  | some type, _ => type.decode literal
  | none, some record => decodeRecord record literal
  | none, none => .error .noLiterals

end FilterSql.Schema
