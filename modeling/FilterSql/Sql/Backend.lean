import FilterSql.Text.Case

/-!
# Backends

The databases the compiler writes for. They differ in how a statement refers to its arguments.
-/

set_option autoImplicit false

namespace FilterSql

inductive Backend where
  | postgres
  | sqlite
  | duckdb
  deriving DecidableEq, Repr, Inhabited

namespace Backend

def all : List Backend := [postgres, sqlite, duckdb]

def name : Backend → String
  | postgres => "postgres"
  | sqlite => "sqlite"
  | duckdb => "duckdb"

/-- The reference to the argument with the given ordinal. DuckDB refers to arguments by their order alone. -/
def placeholder (backend : Backend) (ordinal : Nat) : String :=
  match backend with
  | postgres => "$" ++ toString ordinal
  | sqlite => "?" ++ toString ordinal
  | duckdb => "?"

def ofName? (name : String) : Option Backend :=
  match Text.lowerName name with
  | "postgres" => some postgres
  | "postgresql" => some postgres
  | "sqlite" => some sqlite
  | "duckdb" => some duckdb
  | _ => none

def unknownMessage (name : String) : String :=
  "Invalid backend '" ++ name ++ "'. Valid options: postgres, sqlite, duckdb"

/-- The names by which documents choose a backend. They are exact. -/
def choices : List (String × Backend) :=
  all.map fun backend => (backend.name, backend)

end Backend

end FilterSql
