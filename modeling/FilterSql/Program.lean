import FilterSql.CommandLine.Invocation
import FilterSql.Warning

/-!
# Program

A run of the program, from its arguments, its environment and the files around it to all that it leaves behind.
-/

set_option autoImplicit false

namespace FilterSql

open CommandLine (Environment Invocation Stop)

/-- What a run leaves behind. A run that fails tells why in `failure`. -/
structure Outcome where
  status : Nat
  output : String := ""
  failure : Option String := none
  warnings : List String := []
  deriving DecidableEq, Repr

namespace Program

def name : String := "jel"

def version : String := "0.1.0"

def filterVariable : String := "JEL_LOG"

def defaultFilter : String := "info"

def settingsSubject : String := "jel::core::config"

def usage : String :=
  "\n".intercalate [
    "Compile JSON filter and ordering expressions into parameterized SQL",
    "",
    "Usage: jel [OPTIONS] <COMMAND>",
    "",
    "Commands:",
    "  expr   Compile a JSON expression into a SQL condition with arguments",
    "  order  Compile \"<field> asc|desc\" directives into an ORDER BY clause",
    "  ops    List whitelisted operators and their syntax forms",
    "  help   Print this message",
    "",
    "Options:",
    "  -c, --config <CONFIG>                    Path to config file",
    "      --max-depth <MAX_DEPTH>              Maximum nesting depth of expression lists",
    "      --max-input-bytes <MAX_INPUT_BYTES>  Maximum expression input size in bytes",
    "      --max-orderings <MAX_ORDERINGS>      Maximum number of ordering directives",
    "  -b, --backend <BACKEND>                  Placeholder style (postgres, sqlite or duckdb)",
    "  -f, --format <FORMAT>                    Output format (text or json)",
    "  -s, --schema <SCHEMA>                    Record schema that whitelists referenced fields (expr, order)",
    "      --bool                               Empty input compiles to true (expr)",
    "  -h, --help                               Print help",
    "  -V, --version                            Print version",
    ""]

def stopped (stop : Stop) : Outcome :=
  { status := stop.status
    output :=
      match stop with
      | .help => usage
      | .version => name ++ " " ++ version ++ "\n"
      | .misuse => "" }

def warnings (environment : Environment) (files : Files) (overrides : Settings.Overrides) : List String :=
  if Warning.isShown ((environment filterVariable).getD defaultFilter) settingsSubject then
    (Settings.warning? overrides files).toList
  else []

def runCommand (environment : Environment) (files : Files) (standardInput : String) (invocation : Invocation) :
    Outcome :=
  let warnings := warnings environment files invocation.overrides
  match Settings.load invocation.overrides files with
  | .error error => { status := 1, failure := some error.message, warnings }
  | .ok settings =>
    match Application.run ⟨settings, invocation.format⟩ files standardInput invocation.command with
    | .error error => { status := 1, failure := some error.message, warnings }
    | .ok output => { status := 0, output := output ++ "\n", warnings }

/-- Whether a run with the given arguments gets so far as to read the standard input. -/
def readsInput (environment : Environment) (files : Files) (arguments : List String) : Bool :=
  match CommandLine.parse environment arguments with
  | .ok { command := .expr _ _ none, overrides, .. } => (Settings.load overrides files).isOk
  | _ => false

/-- The paths that a run with the given arguments looks at. -/
def paths (environment : Environment) (arguments : List String) : List String :=
  match CommandLine.parse environment arguments with
  | .ok invocation =>
    let config := invocation.overrides.config.getD Settings.defaultFile
    match invocation.command with
    | .expr schemaPath _ _ => [config, schemaPath]
    | .order schemaPath _ => [config, schemaPath]
    | .ops => [config]
  | .error _ => []

def environmentNames : List String :=
  filterVariable :: CommandLine.settingNames.map (·.2)

def run (environment : Environment) (files : Files) (standardInput : String) (arguments : List String) : Outcome :=
  match CommandLine.parse environment arguments with
  | .error stop => stopped stop
  | .ok invocation => runCommand environment files standardInput invocation

end Program

end FilterSql
