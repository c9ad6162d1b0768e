import FilterSql.CommandLine.Options

/-!
# Invocations

The command that the arguments of a command line and the environment ask for. Arguments are read from left to right,
and the first one that asks for help or for the version or makes no sense decides.
-/

set_option autoImplicit false

namespace FilterSql.CommandLine

structure Invocation where
  command : Command
  overrides : Settings.Overrides
  format : OutputFormat
  deriving DecidableEq, Repr

inductive Argument where
  /-- Ends the options. -/
  | separator
  | long (name : String) (value : Option String)
  | short (letters : List Char)
  | operand (text : String)
  deriving DecidableEq, Repr

/-- The name of a long option and the value behind an equals sign. -/
def longOption (chars : List Char) : Argument :=
  let name := String.ofList (chars.takeWhile (· ≠ '='))
  match chars.dropWhile (· ≠ '=') with
  | [] => .long name none
  | _ :: value => .long name (some (String.ofList value))

/-- The spelling of an argument. A single dash is no option. -/
def Argument.ofText (text : String) : Argument :=
  match text.toList with
  | ['-', '-'] => .separator
  | '-' :: '-' :: rest => longOption rest
  | '-' :: letter :: rest => .short (letter :: rest)
  | _ => .operand text

/-- The text of an argument that can be the value of the option before it. -/
def Argument.value? : Argument → Option String
  | operand text => some text
  | _ => none

def Level.accept (level : Level) (switch : Option Switch) : Except Stop Switch :=
  match switch with
  | some switch => if level.admits switch then .ok switch else .error .misuse
  | none => .error .misuse

/-- What an option makes of the arguments: it is done, or it waits for the next argument as its value. -/
inductive Read where
  | done (given : Given)
  | awaiting (setting : Setting)

def readLong (level : Level) (given : Given) (name : String) (value : Option String) : Except Stop Read := do
  match ← level.accept (Switch.ofWord? name), value with
  | .setting setting, some value => .ok (.done (← given.set setting value))
  | .setting setting, none => .ok (.awaiting setting)
  | .flag flag, none => .ok (.done (← given.raise flag))
  | .flag _, some _ => .error .misuse

/-- Reads short options that stand together. One that takes a value takes all that follows it, without an equals
sign in between. -/
def readShort (level : Level) (given : Given) : List Char → Except Stop Read
  | [] => .ok (.done given)
  | letter :: rest => do
    match ← level.accept (Switch.ofLetter? letter), rest with
    | .flag flag, rest => readShort level (← given.raise flag) rest
    | .setting setting, [] => .ok (.awaiting setting)
    | .setting setting, '=' :: value => .ok (.done (← given.set setting (String.ofList value)))
    | .setting setting, value => .ok (.done (← given.set setting (String.ofList value)))

def readArgument (level : Level) (given : Given) : Argument → Except Stop Read
  | .separator => .error .misuse
  | .long name value => readLong level given name value
  | .short letters => readShort level given letters
  | .operand text => do .ok (.done (← given.addOperand level text))

def readCommand (level : Level) (given : Given) : List String → Except Stop Given
  | [] => .ok given
  | text :: rest =>
    match Argument.ofText text with
    | .separator => rest.foldlM (Given.addOperand level) given
    | argument => do
      match ← readArgument level given argument, rest with
      | .done given, rest => readCommand level given rest
      | .awaiting _, [] => .error .misuse
      | .awaiting setting, next :: rest =>
        match (Argument.ofText next).value? with
        | some value => readCommand level (← given.set setting value) rest
        | none => .error .misuse

/-- Whether the arguments after `help` name a command, `help` itself, or nothing. -/
def helpStop : List String → Stop
  | [] => .help
  | [name] => if name = "help" ∨ (Level.ofName? name).isSome then .help else .misuse
  | _ => .misuse

def commandOf (level : Level) (given : Given) : Except Stop Command :=
  match level, given.schema with
  | .expr, some schema => .ok (.expr schema given.isBoolean given.operands.head?)
  | .order, some schema => if given.operands.isEmpty then .error .misuse else .ok (.order schema given.operands)
  | .ops, _ => .ok .ops
  | _, _ => .error .misuse

/-- Reads the arguments from the name of a command on. `outer` is what was given before it. -/
def readNamed (environment : Environment) (level : Level) (outer : Except Stop Given) (arguments : List String) :
    Except Stop Invocation := do
  let inner ← readCommand level {} arguments
  let _ ← inner.complete environment
  let command ← commandOf level inner
  let outer ← outer
  let _ ← outer.complete environment
  let given ← (inner.orElse outer).complete environment
  .ok {
    command
    overrides := ⟨given.config, given.maxDepth, given.maxInputBytes, given.maxOrderings, given.backend⟩
    format := given.format.getD .text }

/-- Reads the arguments of the program. `held` is a setting whose value was the last argument: it takes effect with
the next argument, or after the command if that one names a command. -/
def readProgram (environment : Environment) (given : Given) (held : Option (Setting × String)) :
    List String → Except Stop Invocation
  | [] => .error .misuse
  | text :: rest => do
    let settled : Except Stop Given :=
      match held with
      | some (setting, value) => given.set setting value
      | none => .ok given
    match Level.ofName? text with
    | some level => readNamed environment level settled rest
    | none =>
      if text = "help" then .error (helpStop rest)
      else do
        let given ← settled
        match ← readArgument .program given (Argument.ofText text), rest with
        | .done given, rest => readProgram environment given none rest
        | .awaiting _, [] => .error .misuse
        | .awaiting setting, next :: rest =>
          match (Argument.ofText next).value? with
          | some value => readProgram environment given (some (setting, value)) rest
          | none => .error .misuse

def parse (environment : Environment) (arguments : List String) : Except Stop Invocation :=
  readProgram environment {} none arguments

end FilterSql.CommandLine
