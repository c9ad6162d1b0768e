import FilterSql.Files
import FilterSql.Limits
import FilterSql.Settings.Document

/-!
# Settings

The limits and the backend in force: each is what the command line says, else what the configuration file says, else
the default.
-/

set_option autoImplicit false

namespace FilterSql

structure Settings where
  limits : Limits := {}
  backend : Backend := .postgres
  deriving DecidableEq, Repr

namespace Settings

/-- What the command line sets, and the configuration file it names. -/
structure Overrides where
  config : Option String := none
  maxDepth : Option Nat := none
  maxInputBytes : Option Nat := none
  maxOrderings : Option Nat := none
  backend : Option Backend := none
  deriving DecidableEq, Repr

/-- The configuration file that is looked for where none is named. -/
def defaultFile : String := "jel.json"

inductive LoadError where
  | noConfigFile (path : String)
  | unreadable (path : String) (error : FileError)
  | malformed (path : String) (error : Json.ParseError)
  | depthOutOfRange (depth : Nat)
  | noInputBytes
  | noOrderings
  deriving DecidableEq, Repr

def LoadError.message : LoadError → String
  | noConfigFile path => "Config file not found: " ++ path
  | unreadable path error => "Failed to read config file: " ++ path ++ ": " ++ error.message
  | malformed path error => "Failed to parse config file: " ++ path ++ ": " ++ error.message
  | depthOutOfRange depth =>
    "Configuration error: limits.max_depth must be between 1 and " ++ toString Limits.greatestDepth ++
      " (got " ++ toString depth ++ ")"
  | noInputBytes => "Configuration error: limits.max_input_bytes must be greater than 0"
  | noOrderings => "Configuration error: limits.max_orderings must be greater than 0"

/-- The configuration file to read: the one that is named, which must exist, or the default one if it exists. -/
def configFile? (overrides : Overrides) (files : Files) : Except LoadError (Option String) :=
  match overrides.config with
  | some path => if (files path).exists? then .ok (some path) else .error (.noConfigFile path)
  | none => .ok (if (files defaultFile).exists? then some defaultFile else none)

def readDocument (files : Files) (path : String) : Except LoadError Document := do
  let content ← (files path).read.mapError (.unreadable path)
  (Document.parse content).mapError (.malformed path)

/-- The document to go by, which is empty if there is no file. -/
def document (overrides : Overrides) (files : Files) : Except LoadError Document := do
  match ← configFile? overrides files with
  | some path => readDocument files path
  | none => .ok {}

/-- Each setting from the first layer that has it. -/
def layer (overrides : Overrides) (document : Document) : Settings :=
  let file := document.limits.getD {}
  let defaults : Settings := {}
  { limits :=
      { maxDepth := (overrides.maxDepth <|> file.maxDepth).getD defaults.limits.maxDepth
        maxInputBytes := (overrides.maxInputBytes <|> file.maxInputBytes).getD defaults.limits.maxInputBytes
        maxOrderings := (overrides.maxOrderings <|> file.maxOrderings).getD defaults.limits.maxOrderings }
    backend := (overrides.backend <|> document.backend).getD defaults.backend }

/-- Refuses limits that nothing could meet, and a depth that could not be kept. -/
def validate (settings : Settings) : Except LoadError Settings :=
  if settings.limits.maxDepth = 0 ∨ Limits.greatestDepth < settings.limits.maxDepth then
    .error (.depthOutOfRange settings.limits.maxDepth)
  else if settings.limits.maxInputBytes = 0 then .error .noInputBytes
  else if settings.limits.maxOrderings = 0 then .error .noOrderings
  else .ok settings

def load (overrides : Overrides) (files : Files) : Except LoadError Settings := do
  let document ← document overrides files
  (layer overrides document).validate

/-- The warning about members of the configuration file that are no settings, if it has any. It is given even if the
settings are refused. -/
def warning? (overrides : Overrides) (files : Files) : Option String :=
  match document overrides files with
  | .ok document =>
    if document.unknown.isEmpty then none
    else some ("Unknown fields in config file (possible typos) fields=" ++ ", ".intercalate document.unknown)
  | .error _ => none

end Settings

end FilterSql
