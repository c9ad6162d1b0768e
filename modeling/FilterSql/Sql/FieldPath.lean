import FilterSql.CompileError

/-!
# Column paths

Paths of column names as they stand in SQL. A name is quoted and never escaped, so that a name with a double quote is
none.
-/

set_option autoImplicit false

namespace FilterSql.Sql

/-- A name that can stand between double quotes as it is. -/
def isIdentifier (name : String) : Bool :=
  name ≠ "" && !name.toList.contains '"'

structure FieldPath where
  segments : List String
  nonempty : segments ≠ []
  identifiers : ∀ segment ∈ segments, isIdentifier segment = true
  deriving DecidableEq

namespace FieldPath

/-- The path with the given segments, or the first of them that is no identifier. -/
def ofSegments (segments : List String) : Except CompileError FieldPath :=
  if nonempty : segments = [] then .error (.invalidPath "")
  else
    match found : segments.find? fun segment => !isIdentifier segment with
    | some segment => .error (.invalidIdentifier segment)
    | none => .ok ⟨segments, nonempty, fun segment member => by
        have := List.find?_eq_none.mp found segment member
        simpa using this⟩

def quoted (name : String) : String :=
  "\"" ++ name ++ "\""

/-- The quoted names with points between them. Of several names, the first stands in parentheses. -/
def textOf : List String → String
  | [] => ""
  | [only] => quoted only
  | first :: rest => "(" ++ quoted first ++ ")" ++ String.join (rest.map fun name => "." ++ quoted name)

def text (path : FieldPath) : String :=
  textOf path.segments

end FieldPath

end FilterSql.Sql
