import FilterSql.Application

/-!
# Options of the command line

The options that arguments may set, their spellings, and what has been set at one level of a command line: before the
name of a command, or after it.
-/

set_option autoImplicit false

namespace FilterSql.CommandLine

inductive Stop where
  | help
  | version
  | misuse
  deriving DecidableEq, Repr

def Stop.status : Stop → Nat
  | help => 0
  | version => 0
  | misuse => 2

inductive Level where
  | program
  | expr
  | order
  | ops
  deriving DecidableEq, Repr

def Level.ofName? : String → Option Level
  | "expr" => some expr
  | "order" => some order
  | "ops" => some ops
  | _ => none

inductive Setting where
  | config
  | maxDepth
  | maxInputBytes
  | maxOrderings
  | backend
  | format
  | schema
  deriving DecidableEq, Repr

inductive Flag where
  | boolean
  | help
  | version
  deriving DecidableEq, Repr

inductive Switch where
  | setting (setting : Setting)
  | flag (flag : Flag)
  deriving DecidableEq, Repr

/-- Whether a command takes the option. All settings but the schema are taken everywhere. -/
def Level.admits (level : Level) : Switch → Bool
  | .setting .schema => level = .expr ∨ level = .order
  | .setting _ => true
  | .flag .boolean => level = .expr
  | .flag .help => true
  | .flag .version => level = .program

def Switch.ofWord? : String → Option Switch
  | "config" => some (.setting .config)
  | "max-depth" => some (.setting .maxDepth)
  | "max-input-bytes" => some (.setting .maxInputBytes)
  | "max-orderings" => some (.setting .maxOrderings)
  | "backend" => some (.setting .backend)
  | "format" => some (.setting .format)
  | "schema" => some (.setting .schema)
  | "bool" => some (.flag .boolean)
  | "help" => some (.flag .help)
  | "version" => some (.flag .version)
  | _ => none

def Switch.ofLetter? : Char → Option Switch
  | 'c' => some (.setting .config)
  | 'b' => some (.setting .backend)
  | 'f' => some (.setting .format)
  | 's' => some (.setting .schema)
  | 'h' => some (.flag .help)
  | 'V' => some (.flag .version)
  | _ => none

/-- A count that fits a word of 64 bits, which may start with a plus sign. -/
def count? (text : String) : Option Nat :=
  let digits :=
    match text.toList with
    | '+' :: rest => rest
    | chars => chars
  if digits.isEmpty ∨ !digits.all Char.isDigit then none
  else
    let count := digits.foldl (fun value digit => 10 * value + (digit.toNat - '0'.toNat)) 0
    if count ≤ 18446744073709551615 then some count else none

def path? (text : String) : Option String :=
  if text = "" then none else some text

structure Given where
  config : Option String := none
  maxDepth : Option Nat := none
  maxInputBytes : Option Nat := none
  maxOrderings : Option Nat := none
  backend : Option Backend := none
  format : Option OutputFormat := none
  schema : Option String := none
  isBoolean : Bool := false
  operands : List String := []
  deriving DecidableEq, Repr

namespace Given

/-- The value of a setting that is given for the first time. -/
def fresh {α : Type} (earlier value : Option α) : Except Stop (Option α) :=
  match earlier, value with
  | none, some value => .ok (some value)
  | _, _ => .error .misuse

/-- Gives a setting a value. It must be a possible one, and the only one. -/
def set (given : Given) (setting : Setting) (value : String) : Except Stop Given :=
  match setting with
  | .config => do .ok { given with config := ← fresh given.config (path? value) }
  | .maxDepth => do .ok { given with maxDepth := ← fresh given.maxDepth (count? value) }
  | .maxInputBytes => do .ok { given with maxInputBytes := ← fresh given.maxInputBytes (count? value) }
  | .maxOrderings => do .ok { given with maxOrderings := ← fresh given.maxOrderings (count? value) }
  | .backend => do .ok { given with backend := ← fresh given.backend (Backend.ofName? value) }
  | .format => do .ok { given with format := ← fresh given.format (OutputFormat.ofName? value) }
  | .schema => do .ok { given with schema := ← fresh given.schema (path? value) }

def raise (given : Given) : Flag → Except Stop Given
  | .boolean => if given.isBoolean then .error .misuse else .ok { given with isBoolean := true }
  | .help => .error .help
  | .version => .error .version

/-- Takes an argument that is no option, if the command takes it. -/
def addOperand (level : Level) (given : Given) (operand : String) : Except Stop Given :=
  match level with
  | .order => .ok { given with operands := given.operands ++ [operand] }
  | .expr => if given.operands.isEmpty then .ok { given with operands := [operand] } else .error .misuse
  | _ => .error .misuse

def orElse (given other : Given) : Given :=
  { given with
    config := given.config <|> other.config
    maxDepth := given.maxDepth <|> other.maxDepth
    maxInputBytes := given.maxInputBytes <|> other.maxInputBytes
    maxOrderings := given.maxOrderings <|> other.maxOrderings
    backend := given.backend <|> other.backend
    format := given.format <|> other.format }

end Given

/-! ## Environment variables -/

abbrev Environment := String → Option String

/-- The settings that an environment variable may give, with its name. -/
def settingNames : List (Setting × String) :=
  [(.config, "JEL_CONFIG"), (.maxDepth, "JEL_MAX_DEPTH"), (.maxInputBytes, "JEL_MAX_INPUT_BYTES"),
    (.maxOrderings, "JEL_MAX_ORDERINGS"), (.backend, "JEL_BACKEND")]

def Given.has (given : Given) : Setting → Bool
  | .config => given.config.isSome
  | .maxDepth => given.maxDepth.isSome
  | .maxInputBytes => given.maxInputBytes.isSome
  | .maxOrderings => given.maxOrderings.isSome
  | .backend => given.backend.isSome
  | .format => given.format.isSome
  | .schema => given.schema.isSome

def Given.complete (given : Given) (environment : Environment) : Except Stop Given :=
  settingNames.foldlM (fun completed (setting, name) =>
    match environment name with
    | some value => if completed.has setting then .ok completed else completed.set setting value
    | none => .ok completed) given

end FilterSql.CommandLine
