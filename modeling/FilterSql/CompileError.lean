import FilterSql.Json.Fault
import FilterSql.Operator
import FilterSql.Schema.FieldType

/-!
# Rejections

Why an expression or an ordering is not compiled. The first fault rejects the whole input. Every rejection has a code
for programs and a message for people.
-/

set_option autoImplicit false

namespace FilterSql

inductive CompileError where
  | notJson (error : Json.ParseError)
  | emptyExpression
  | headNotString (head : Json)
  | unexpectedObject (found : Json)
  | emptyList
  | arityMismatch (operator : Operator) (found : Nat)
  | unknownField (field record : String)
  | invalidPath (path : String)
  | noSchemaProvided (path : String)
  | noStorageMapping (field record path : String)
  | invalidIdentifier (name : String)
  | castArityMismatch (field : String) (found : Nat)
  | castDecodeFailure (field typeName : String) (reason : Schema.DecodeError)
  | invalidOrdering (directive : String)
  | tooDeep (limit : Nat)
  | inputTooLarge (size limit : Nat)
  | tooManyOrderings (count limit : Nat)
  deriving DecidableEq, Repr

namespace CompileError

def code : CompileError → String
  | notJson _ => "INVALID_INPUT"
  | emptyExpression => "INVALID_INPUT"
  | headNotString _ => "INVALID_INPUT"
  | unexpectedObject _ => "UNEXPECTED_OBJECT"
  | emptyList => "EMPTY_LIST"
  | arityMismatch _ _ => "ARITY_MISMATCH"
  | unknownField _ _ => "UNKNOWN_FIELD"
  | invalidPath _ => "INVALID_PATH"
  | noSchemaProvided _ => "NO_SCHEMA_PROVIDED"
  | noStorageMapping _ _ _ => "NO_STORAGE_MAPPING"
  | invalidIdentifier _ => "INVALID_IDENTIFIER"
  | castArityMismatch _ _ => "CAST_ARITY_MISMATCH"
  | castDecodeFailure _ _ _ => "CAST_DECODE_FAILURE"
  | invalidOrdering _ => "INVALID_ORDERING"
  | tooDeep _ => "TOO_DEEP"
  | inputTooLarge _ _ => "INPUT_TOO_LARGE"
  | tooManyOrderings _ _ => "TOO_MANY_ORDERINGS"

def message : CompileError → String
  | notJson error => "Invalid input: " ++ error.message
  | emptyExpression => "Invalid input: expression is empty"
  | headNotString head => "Invalid input: first list element must be a string, found " ++ head.compact
  | unexpectedObject found => "Unexpected object in input: " ++ found.compact
  | emptyList => "Lists must have at least one element, found empty list"
  | arityMismatch operator found =>
    "Operation " ++ Text.quoted operator.name ++ " must have " ++ operator.form.arity ++
      " argument(s), found " ++ toString found
  | unknownField field record => "Unknown field " ++ Text.quoted field ++ " in " ++ record
  | invalidPath path => "Expected a valid dot-separated identifier, got " ++ Text.quoted path
  | noSchemaProvided path => "Can't find field by path " ++ Text.quoted path ++ ": no schema provided"
  | noStorageMapping field record path =>
    "No column name corresponding to " ++ Text.quoted field ++ " in " ++ record ++ " for path " ++
      Text.quoted path
  | invalidIdentifier name => "Unexpected '\"' in SQL identifier " ++ Text.quoted name
  | castArityMismatch field found =>
    "Cast into " ++ Text.quoted field ++ " must have exactly 1 argument, found " ++ toString found
  | castDecodeFailure field typeName reason =>
    "Failed to decode cast into " ++ Text.quoted field ++ " as " ++ typeName ++ ": " ++ reason.message
  | invalidOrdering directive =>
    Text.quoted directive ++ " is not a valid ordering string; expected format: \"<ident> asc|desc\""
  | tooDeep limit => "Expression nesting exceeds maximum depth of " ++ toString limit
  | inputTooLarge size limit =>
    "Expression input of " ++ toString size ++ " bytes exceeds maximum size of " ++ toString limit ++ " bytes"
  | tooManyOrderings count limit =>
    "Maximum " ++ toString limit ++ " orderings allowed, found " ++ toString count

end CompileError

end FilterSql
