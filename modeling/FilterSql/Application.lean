import FilterSql.Expr.Basic
import FilterSql.Files
import FilterSql.Ordering
import FilterSql.Schema.Loaded
import FilterSql.Settings.Basic

/-!
# Application

The commands that can be run against files, and the text that each of them gives.
-/

set_option autoImplicit false

namespace FilterSql

inductive OutputFormat where
  | text
  | json
  deriving DecidableEq, Repr, Inhabited

def OutputFormat.ofName? (name : String) : Option OutputFormat :=
  match Text.lowerName name with
  | "text" => some text
  | "json" => some json
  | _ => none

def OutputFormat.name : OutputFormat → String
  | text => "text"
  | json => "json"

inductive Command where
  /-- Compile an expression, which is read from the standard input if it is not given. -/
  | expr (schemaPath : String) (isBoolean : Bool) (input : Option String)
  /-- Compile ordering directives. -/
  | order (schemaPath : String) (directives : List String)
  /-- List the operators. -/
  | ops
  deriving DecidableEq, Repr

inductive CommandError where
  | schemaUnreadable (path : String) (error : FileError)
  | schemaNotLoaded (path : String) (error : Schema.LoadError)
  | rejected (error : CompileError)
  deriving DecidableEq, Repr

namespace CommandError

/-- The message of a cause, with the messages of what caused it. -/
def chain (messages : List String) : String :=
  ": ".intercalate messages

def message : CommandError → String
  | schemaUnreadable path error =>
    chain ["Failed to load schema: " ++ path, "IO error: " ++ error.message, error.message]
  | schemaNotLoaded path (.notRead error) =>
    chain ["Failed to load schema: " ++ path, (Schema.LoadError.notRead error).message, error.message]
  | schemaNotLoaded path (.invalid field) => chain ["Failed to load schema: " ++ path, field.message]
  | rejected error => error.message ++ " [" ++ error.code ++ "]"

end CommandError

structure Application where
  settings : Settings
  format : OutputFormat

namespace Application

def loadSchema (files : Files) (path : String) : Except CommandError Schema := do
  let content ← (files path).read.mapError (.schemaUnreadable path)
  (Schema.load content).mapError (.schemaNotLoaded path)

/-- The SQL of an expression on a line of its own, then a line for each argument. -/
def compiledText (backend : Backend) (compiled : Compiled) : String :=
  let lines := compiled.arguments.zipIdx.map fun (value, index) =>
    backend.placeholder (index + 1) ++ ": " ++ value.toJson.compact
  "\n".intercalate (compiled.text :: lines)

def compiledJson (compiled : Compiled) : Json :=
  .object [("sql", .string compiled.text), ("args", .array (compiled.arguments.map Sql.Value.toJson))]

def padded (width : Nat) (name : String) : String :=
  name ++ String.ofList (List.replicate (width - name.length) ' ')

/-- A line for each operator, the forms standing in a column. -/
def operatorsText : String :=
  "\n".intercalate (Operator.all.map fun operator => padded 22 operator.name ++ operator.form.name)

def operatorsJson : Json :=
  .array (Operator.all.map fun operator =>
    .object [("name", .string operator.name), ("syntax", .string operator.form.name)])

def compileExpr (application : Application) (schema : Schema) (isBoolean : Bool) (input : String) :
    Except CommandError String := do
  let settings := application.settings
  let expr : Expr Schema := ⟨some (.text input), some schema, isBoolean, settings.limits⟩
  let compiled ← (expr.compile settings.backend).mapError .rejected
  match application.format with
  | .text => .ok (compiledText settings.backend compiled)
  | .json => .ok (compiledJson compiled).pretty

def compileOrder (application : Application) (schema : Schema) (directives : List String) :
    Except CommandError String := do
  let orders := (Orders.empty (some schema)).withLimits application.settings.limits
  let orders ← (orders.parse directives).mapError .rejected
  match application.format with
  | .text => .ok orders.text
  | .json => .ok (Json.object [("sql", .string orders.text)]).pretty

def run (application : Application) (files : Files) (standardInput : String) :
    Command → Except CommandError String
  | .expr schemaPath isBoolean input => do
    let schema ← loadSchema files schemaPath
    application.compileExpr schema isBoolean (input.getD standardInput)
  | .order schemaPath directives => do
    let schema ← loadSchema files schemaPath
    application.compileOrder schema directives
  | .ops =>
    match application.format with
    | .text => .ok operatorsText
    | .json => .ok operatorsJson.pretty

end Application

end FilterSql
