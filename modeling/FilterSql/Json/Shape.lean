import FilterSql.Json.Reader

/-!
# Reading JSON of a given shape

Readers for texts that must hold a string, a flag, a count, one of some names, a list, or a record with named fields.
A text of another shape is a fault at the place where that shows, even if more faults follow.
-/

set_option autoImplicit false

namespace FilterSql.Json

/-- The fault of a value that is not what was expected, from its first character. Scalars are read first, lists and
objects are not. -/
def unexpected (expected : String) (c : Char) (rest : List Char) : Fault :=
  if c = '[' then .before (.wrongType (.array []) expected) (c :: rest)
  else if c = '\x7b' then .before (.wrongType (.object []) expected) (c :: rest)
  else
    match readScalar c rest with
    | .ok (found, rest) => .before (.wrongType found expected) rest
    | .error fault => fault

/-- Skips blanks and reads on from the first character of a value. -/
def readFirst {α : Type} (read : Char → List Char → Except Fault (α × List Char)) : Reader α := fun text =>
  match skipBlank text with
  | [] => .error (.upon .endInValue [])
  | c :: rest => read c rest

/-- Reads a string and makes something of it, or faults after it. -/
def readText {α : Type} (expected : String) (make : String → Except Reason α) : Reader α :=
  readFirst fun c rest =>
    if c = '"' then do
      let (value, rest) ← readString rest
      match make value with
      | .ok made => .ok (made, rest)
      | .error reason => .error (.before reason rest)
    else .error (unexpected expected c rest)

def readStringValue : Reader String :=
  readText "a string" .ok

def readFlag : Reader Bool :=
  readFirst fun c rest =>
    if c = 't' ∨ c = 'f' then do
      let (_, after) ← readScalar c rest
      .ok (c = 't', after)
    else .error (unexpected "a boolean" c rest)

def readNull : Reader Unit :=
  readFirst fun c rest =>
    if c = 'n' then do
      let (_, after) ← readScalar c rest
      .ok ((), after)
    else .error (unexpected "unit" c rest)

def readCount : Reader Nat :=
  readFirst fun c rest =>
    if c = '-' ∨ c.isDigit then do
      let (value, rest) ← readScalar c rest
      match value with
      | .number (.integer (.ofNat count)) => .ok (count, rest)
      | .number (.integer (.negSucc _)) => .error (.before (.wrongValue value "usize") rest)
      | _ => .error (.before (.wrongType value "usize") rest)
    else .error (unexpected "usize" c rest)

/-- Reads null as nothing and anything else with the given reader. -/
def readOptional {α : Type} (value : Reader α) : Reader (Option α) := fun text =>
  match skipBlank text with
  | 'n' :: rest => do
    let (_, rest) ← readScalar 'n' rest
    .ok (none, rest)
  | _ => do
    let (value, rest) ← value text
    .ok (some value, rest)

/-- One of several named alternatives, found by its exact name. -/
def variant {α : Type} (choices : List (String × α)) (name : String) : Except Reason α :=
  match choices.find? fun choice => choice.1 == name with
  | some choice => .ok choice.2
  | none => .error (.unknownVariant name (choices.map (·.1)))

/-- Reads one of several names, as a string or as the only key of an object with the value null. -/
def readVariant {α : Type} (choices : List (String × α)) (depth : Nat) : Reader α :=
  readFirst fun c rest =>
    if c = '"' then readText "variant identifier" (variant choices) (c :: rest)
    else if c = '\x7b' then
      if depth = 0 then .error (.upon .nestingLimit (c :: rest))
      else do
        let (chosen, rest) ← readText "variant identifier" (variant choices) rest
        let rest ← readColon rest
        let (_, rest) ← readNull rest
        match skipBlank rest with
        | [] => .error (.before .endInObject [])
        | c :: rest =>
          if c = '\x7d' then .ok (chosen, rest) else .error (.before .expectedValue (c :: rest))
    else .error (.upon .expectedValue (c :: rest))

def readListOf {α : Type} (item : Nat → Reader α) (depth : Nat) : Reader (List α) :=
  readFirst fun c rest =>
    if c = '[' then
      match depth with
      | 0 => .error (.upon .nestingLimit (c :: rest))
      | inner + 1 => readList (item inner) rest
    else .error (unexpected "a sequence" c rest)

/-- The place of a fault that a whole object shows: after its closing bracket, if that is what follows. -/
def faultInObject (reason : Reason) (text : List Char) : Fault :=
  match skipBlank text with
  | '\x7d' :: rest => .before reason rest
  | rest => .before reason rest

/-- The place of a fault that a whole list shows: after its closing bracket or the comma that follows. -/
def faultInList (reason : Reason) (text : List Char) : Fault :=
  match skipBlank text with
  | ']' :: rest => .before reason rest
  | ',' :: rest => .before reason (skipBlank rest)
  | rest => .before reason rest

def closeList (text : List Char) : Except Fault (List Char) :=
  match skipBlank text with
  | [] => .error (.upon .endInList [])
  | c :: rest =>
    if c = ']' then .ok rest
    else if c = ',' then
      match skipBlank rest with
      | ']' :: after => .error (.upon .trailingComma (']' :: after))
      | after => .error (.upon .trailingText after)
    else .error (.upon .trailingText (c :: rest))

/-- Reads the value of an object's member that must not have been read before, from the text after its key. -/
def readOnce {α : Type} (key : String) (earlier : Option α) (value : Reader α) : Reader α := fun text => do
  if earlier.isSome then .error (faultInObject (.duplicateField key) text)
  let rest ← readColon text
  value rest

/-! ## Values that are read over -/

/-- Reads over a string, checking escapes only for their form. -/
def skipString : (fuel : Nat) → List Char → Except Fault (List Char)
  | 0, text => .error (.before .endInString text)
  | _ + 1, [] => .error (.before .endInString [])
  | fuel + 1, c :: rest =>
    if c = '"' then .ok rest
    else if c = '\\' then
      match rest with
      | [] => .error (.before .endInString [])
      | letter :: rest =>
        if letter = 'u' then do
          let (_, rest) ← readHex rest
          skipString fuel rest
        else if (escaped? letter).isSome then skipString fuel rest
        else .error (.upon .invalidEscape (letter :: rest))
    else if c.toNat < 0x20 then .error (.before .controlCharacter (c :: rest))
    else skipString fuel rest

def skipDigits (text : List Char) : Except Fault (List Char) :=
  if startsWithDigit text then .ok (text.dropWhile Char.isDigit) else .error (.upon .invalidNumber text)

def skipExponent (text : List Char) : Except Fault (List Char) :=
  let text :=
    match text with
    | '+' :: rest => rest
    | '-' :: rest => rest
    | _ => text
  match text with
  | [] => .error (.before .invalidNumber [])
  | c :: rest =>
    if c.isDigit then .ok (rest.dropWhile Char.isDigit) else .error (.upon .invalidNumber (c :: rest))

def skipFraction (text : List Char) : Except Fault (List Char) :=
  match text with
  | [] => .ok []
  | c :: rest =>
    if c = '.' then do
      let rest ← skipDigits rest
      match rest with
      | [] => .ok []
      | c :: after => if c = 'e' ∨ c = 'E' then skipExponent after else .ok rest
    else if c = 'e' ∨ c = 'E' then skipExponent rest
    else .ok text

def skipNumber (text : List Char) : Except Fault (List Char) :=
  match text with
  | [] => .error (.before .invalidNumber [])
  | c :: rest =>
    if c = '0' then
      if startsWithDigit rest then .error (.upon .invalidNumber rest) else skipFraction rest
    else if c.isDigit then skipFraction (rest.dropWhile Char.isDigit)
    else .error (.upon .invalidNumber (c :: rest))

def skipScalar (c : Char) (rest : List Char) : Except Fault (List Char) :=
  if c = '-' then skipNumber rest
  else if c.isDigit then skipNumber (c :: rest)
  else if c = '"' then skipString (rest.length + 1) rest
  else do
    let (_, rest) ← readScalar c rest
    .ok rest

inductive SkipStep where
  | value
  /-- A value inside the innermost bracket is finished, or its opening bracket was just read. -/
  | inside (opened : Bool)

/-- Reads over a value, the brackets still open being listed from the innermost one (`true` for a list). There is no
bound on the nesting. `fuel` bounds the number of steps. -/
def skipSteps : (fuel : Nat) → SkipStep → (brackets : List Bool) → List Char → Except Fault (List Char)
  | 0, _, _, text => .error (.upon .endInValue text)
  | fuel + 1, .value, brackets, text =>
    match skipBlank text with
    | [] => .error (.upon .endInValue [])
    | c :: rest =>
      if c = '[' then skipSteps fuel (.inside true) (true :: brackets) rest
      else if c = '\x7b' then skipSteps fuel (.inside true) (false :: brackets) rest
      else do
        let rest ← skipScalar c rest
        skipSteps fuel (.inside false) brackets rest
  | _ + 1, .inside _, [], text => .ok text
  | fuel + 1, .inside opened, isList :: brackets, text =>
    let keyThenValue (text : List Char) : Except Fault (List Char) :=
      match skipBlank text with
      | [] => .error (.upon .endInObject [])
      | c :: rest =>
        if c = '"' then do
          let rest ← skipString (rest.length + 1) rest
          readColon rest
        else .error (.upon .keyNotString (c :: rest))
    let due (text : List Char) : Except Fault (List Char) :=
      if isList then .ok text else keyThenValue text
    match skipBlank text with
    | [] => .error (.upon (if isList then .endInList else .endInObject) [])
    | c :: rest =>
      if c = (if isList then ']' else '\x7d') then skipSteps fuel (.inside false) brackets rest
      else if opened then do
        let rest ← due (c :: rest)
        skipSteps fuel .value (isList :: brackets) rest
      else if c = ',' then do
        let rest ← due rest
        skipSteps fuel .value (isList :: brackets) rest
      else .error (.upon (if isList then .expectedListSeparator else .expectedObjectSeparator) (c :: rest))

def skipValue (text : List Char) : Except Fault (List Char) :=
  skipSteps (2 * text.length + 2) .value [] text

end FilterSql.Json
