import FilterSql.Json.Token

/-!
# Reading JSON

The reader of whole values, and the loops over list elements and object members that readers of particular shapes
share with it. Nesting is bounded by a depth that each opening bracket uses up.
-/

set_option autoImplicit false

namespace FilterSql.Json

def maxNesting : Nat := 127

/-- Finds the next element of a list, after its opening bracket or an element: the text at the element, or at the
closing bracket. -/
def nextItem (first : Bool) (text : List Char) : Except Fault (Bool × List Char) :=
  match skipBlank text with
  | [] => .error (.upon .endInList [])
  | c :: rest =>
    if c = ']' then .ok (false, c :: rest)
    else if first then .ok (true, c :: rest)
    else if c = ',' then
      match skipBlank rest with
      | [] => .error (.upon .endInValue [])
      | next :: rest =>
        if next = ']' then .error (.upon .trailingComma (next :: rest)) else .ok (true, next :: rest)
    else .error (.upon .expectedListSeparator (c :: rest))

/-- Finds the next member of an object, after its opening bracket or a member: the text after the quote that opens its
key, or at the closing bracket. -/
def nextMember (first : Bool) (text : List Char) : Except Fault (Bool × List Char) :=
  match skipBlank text with
  | [] => .error (.upon .endInObject [])
  | c :: rest =>
    if c = '\x7d' then .ok (false, c :: rest)
    else if first then
      if c = '"' then .ok (true, rest) else .error (.upon .keyNotString (c :: rest))
    else if c = ',' then
      match skipBlank rest with
      | [] => .error (.upon .endInValue [])
      | next :: rest =>
        if next = '"' then .ok (true, rest)
        else if next = '\x7d' then .error (.upon .trailingComma (next :: rest))
        else .error (.upon .keyNotString (next :: rest))
    else .error (.upon .expectedObjectSeparator (c :: rest))

def readColon (text : List Char) : Except Fault (List Char) :=
  match skipBlank text with
  | [] => .error (.upon .endInObject [])
  | c :: rest => if c = ':' then .ok rest else .error (.upon .expectedColon (c :: rest))

/-- Reads the elements of a list up to its closing bracket. `fuel` bounds the number of rounds. -/
def readItems {α : Type} (item : Reader α) : (fuel : Nat) → (first : Bool) → Reader (List α)
  | 0, _, text => .error (.upon .endInList text)
  | fuel + 1, first, text => do
    let (found, rest) ← nextItem first text
    if found then
      let (value, rest) ← item rest
      let (values, rest) ← readItems item fuel false rest
      .ok (value :: values, rest)
    else .ok ([], rest.drop 1)

/-- Reads the members of an object up to its closing bracket, handing each key with the text after it to `member`,
which reads on from the colon. -/
def readMembers {σ : Type} (member : σ → String → Reader σ) :
    (fuel : Nat) → (first : Bool) → σ → Reader σ
  | 0, _, _, text => .error (.upon .endInObject text)
  | fuel + 1, first, state, text => do
    let (found, rest) ← nextMember first text
    if found then
      let (key, rest) ← readString rest
      let (state, rest) ← member state key rest
      readMembers member fuel false state rest
    else .ok (state, rest.drop 1)

def readList {α : Type} (item : Reader α) : Reader (List α) := fun text =>
  readItems item (text.length + 1) true text

def readObject {σ : Type} (member : σ → String → Reader σ) (start : σ) : Reader σ := fun text =>
  readMembers member (text.length + 1) true start text

def readPair (value : Reader Json) (collected : List (String × Json)) (key : String) :
    Reader (List (String × Json)) := fun text => do
  let rest ← readColon text
  let (value, rest) ← value rest
  .ok (insertMember collected key value, rest)

def readScalar (c : Char) (rest : List Char) : Except Fault (Json × List Char) :=
  if c = 'n' then do
    let (_, rest) ← readLetters ['u', 'l', 'l'] rest
    .ok (.null, rest)
  else if c = 't' then do
    let (_, rest) ← readLetters ['r', 'u', 'e'] rest
    .ok (.bool true, rest)
  else if c = 'f' then do
    let (_, rest) ← readLetters ['a', 'l', 's', 'e'] rest
    .ok (.bool false, rest)
  else if c = '-' then do
    let (value, rest) ← readNumber true rest
    .ok (.number value, rest)
  else if c.isDigit then do
    let (value, rest) ← readNumber false (c :: rest)
    .ok (.number value, rest)
  else if c = '"' then do
    let (value, rest) ← readString rest
    .ok (.string value, rest)
  else .error (.upon .expectedValue (c :: rest))

/-- Reads a value with at most `depth` lists and objects inside each other. -/
def readValue (depth : Nat) : Reader Json := fun text =>
  match skipBlank text with
  | [] => .error (.upon .endInValue [])
  | c :: rest =>
    if c = '[' then
      match depth with
      | 0 => .error (.upon .nestingLimit (c :: rest))
      | inner + 1 => do
        let (items, rest) ← readList (readValue inner) rest
        .ok (.array items, rest)
    else if c = '\x7b' then
      match depth with
      | 0 => .error (.upon .nestingLimit (c :: rest))
      | inner + 1 => do
        let (members, rest) ← readObject (readPair (readValue inner)) [] rest
        .ok (.object members, rest)
    else readScalar c rest

/-- Reads a whole text, which may end in blanks only. -/
def readAll {α : Type} (reader : Reader α) (text : String) : Except ParseError α :=
  let outcome := do
    let (value, rest) ← reader text.toList
    match skipBlank rest with
    | [] => .ok value
    | c :: rest => .error (Fault.upon .trailingText (c :: rest))
  outcome.mapError (·.locate text.toList)

/-- Reads the start of a text. What follows the value is not looked at. -/
def readStart {α : Type} (reader : Reader α) (text : String) : Except ParseError α :=
  ((reader text.toList).map (·.1)).mapError (·.locate text.toList)

def parse (text : String) : Except ParseError Json :=
  readAll (readValue maxNesting) text

end FilterSql.Json
