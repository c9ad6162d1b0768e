import FilterSql.Json.Printer

/-!
# Faults of a JSON text

Why a text could not be read, and where: a fault keeps what was left of the text, from which its line and column
follow.
-/

set_option autoImplicit false

namespace FilterSql.Json

/-- Why a text could not be read. The first group are faults of the text itself, the second of a well-formed text
that does not have the shape asked for. -/
inductive Reason where
  | endInList
  | endInObject
  | endInString
  | endInValue
  | expectedColon
  | expectedListSeparator
  | expectedObjectSeparator
  | expectedKeyword
  | expectedValue
  | invalidEscape
  | invalidNumber
  | numberOutOfRange
  | controlCharacter
  | keyNotString
  | loneSurrogate
  | unfinishedSurrogatePair
  | nestingLimit
  | trailingComma
  | trailingText
  | wrongType (found : Json) (expected : String)
  | wrongValue (found : Json) (expected : String)
  | wrongLength (length : Nat) (expected : String)
  | unknownVariant (name : String) (expected : List String)
  | unknownField (name : String) (expected : List String)
  | duplicateField (name : String)
  | missingField (name : String)
  deriving DecidableEq, Repr

def alternatives (names : List String) : String :=
  match names.map fun name => "`" ++ name ++ "`" with
  | [] => ""
  | [name] => name
  | [first, second] => first ++ " or " ++ second
  | several => "one of " ++ ", ".intercalate several

namespace Reason

def message : Reason → String
  | endInList => "EOF while parsing a list"
  | endInObject => "EOF while parsing an object"
  | endInString => "EOF while parsing a string"
  | endInValue => "EOF while parsing a value"
  | expectedColon => "expected `:`"
  | expectedListSeparator => "expected `,` or `]`"
  | expectedObjectSeparator => "expected `,` or `\x7d`"
  | expectedKeyword => "expected ident"
  | expectedValue => "expected value"
  | invalidEscape => "invalid escape"
  | invalidNumber => "invalid number"
  | numberOutOfRange => "number out of range"
  | controlCharacter => "control character (\\u0000-\\u001F) found while parsing a string"
  | keyNotString => "key must be a string"
  | loneSurrogate => "lone leading surrogate in hex escape"
  | unfinishedSurrogatePair => "unexpected end of hex escape"
  | nestingLimit => "recursion limit exceeded"
  | trailingComma => "trailing comma"
  | trailingText => "trailing characters"
  | wrongType found expected => "invalid type: " ++ found.description ++ ", expected " ++ expected
  | wrongValue found expected => "invalid value: " ++ found.description ++ ", expected " ++ expected
  | wrongLength length expected => "invalid length " ++ toString length ++ ", expected " ++ expected
  | unknownVariant name expected => "unknown variant `" ++ name ++ "`, expected " ++ alternatives expected
  | unknownField name expected => "unknown field `" ++ name ++ "`, expected " ++ alternatives expected
  | duplicateField name => "duplicate field `" ++ name ++ "`"
  | missingField name => "missing field `" ++ name ++ "`"

end Reason

/-- A place in a text. Columns count bytes from the start of the line. -/
structure Position where
  line : Nat
  column : Nat
  deriving DecidableEq, Repr

namespace Position

def start : Position := ⟨1, 0⟩

def next (position : Position) (c : Char) : Position :=
  if c = '\n' then ⟨position.line + 1, 0⟩ else ⟨position.line, position.column + c.utf8Size⟩

/-- The place after `bytes` bytes of the text, at most at its end. -/
def advance (position : Position) : (bytes : Nat) → (text : List Char) → Position
  | _, [] => position
  | bytes, c :: rest =>
    if c.utf8Size ≤ bytes then advance (position.next c) (bytes - c.utf8Size) rest
    else ⟨position.line, position.column + bytes⟩

end Position

/-- A reason to stop reading, with the text that was left and the number of its bytes that the fault reaches into. -/
structure Fault where
  reason : Reason
  rest : List Char
  ahead : Nat
  deriving DecidableEq, Repr

structure ParseError where
  reason : Reason
  position : Position
  deriving DecidableEq, Repr

namespace Fault

/-- The fault that ends where the given text starts. -/
def before (reason : Reason) (rest : List Char) : Fault := ⟨reason, rest, 0⟩

/-- The fault that the first character of the given text shows, or its end. -/
def upon (reason : Reason) (rest : List Char) : Fault := ⟨reason, rest, 1⟩

/-- The fault as an error of the whole text that was being read. -/
def locate (fault : Fault) (text : List Char) : ParseError :=
  let consumed := text.take (text.length - fault.rest.length)
  ⟨fault.reason, (consumed.foldl Position.next .start).advance fault.ahead fault.rest⟩

end Fault

def ParseError.message (error : ParseError) : String :=
  error.reason.message ++ " at line " ++ toString error.position.line ++ " column " ++
    toString error.position.column

end FilterSql.Json
