import FilterSql.Schema.DottedPath
import FilterSql.Schema.Record
import FilterSql.Sql.FieldPath

/-!
# Resolution

A dotted path of public names leads from a record type to a column path and the field at its end.
-/

set_option autoImplicit false

namespace FilterSql.Schema

open Sql (FieldPath)

variable {ρ : Type} [RecordType ρ]

/-- The field at the end of a path, with the columns on the way. -/
structure Resolved (ρ : Type) where
  path : FieldPath
  field : Field ρ

/-- The field that a record shows under a name, if it is stored. `path` is what the client wrote. -/
def storedField (path : String) (record : ρ) (name : String) : Except CompileError (Field ρ) :=
  match findField record name with
  | none => .error (.unknownField name (typeName record))
  | some field =>
    if field.column = "" then .error (.noStorageMapping name (typeName record) path) else .ok field

/-- Follows the names from a field on, each into the record behind the field before it. Gives the columns on the way
and the last field. -/
def followSegments (path : String) (field : Field ρ) : List String → Except CompileError (List String × Field ρ)
  | [] => .ok ([field.column], field)
  | name :: rest =>
    match field.nested with
    | none => .error (.unknownField name field.typeName)
    | some record => do
      let next ← storedField path record name
      let (columns, last) ← followSegments path next rest
      .ok (field.column :: columns, last)

/-- Resolves a dotted path against a record type, if there is one. -/
def resolve (schema : Option ρ) (path : String) : Except CompileError (Resolved ρ) :=
  if !isDottedPath path then .error (.invalidPath path)
  else
    match schema, pathSegments path with
    | none, _ => .error (.noSchemaProvided path)
    | some _, [] => .error (.invalidPath path)
    | some record, first :: rest => do
      let field ← storedField path record first
      let (columns, last) ← followSegments path field rest
      let columnPath ← FieldPath.ofSegments columns
      .ok ⟨columnPath, last⟩

end FilterSql.Schema
