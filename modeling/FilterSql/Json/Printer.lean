import FilterSql.Json.Basic
import FilterSql.Numeric.Notation
import FilterSql.Text.Quoted

/-!
# JSON text

The compact text of a value, without any blanks, and the indented text with two spaces a level.
-/

set_option autoImplicit false

namespace FilterSql.Json

open Numeric (Double)

/-- One character as it stands in a JSON string. Only the quote, the backslash and control characters are escaped. -/
def escapeChar (c : Char) : String :=
  match c with
  | '"' => "\\\""
  | '\\' => "\\\\"
  | '\x08' => "\\b"
  | '\x0c' => "\\f"
  | '\n' => "\\n"
  | '\r' => "\\r"
  | '\t' => "\\t"
  | _ =>
    if c.toNat < 0x10 then "\\u000" ++ Text.hexDigits c.toNat
    else if c.toNat < 0x20 then "\\u00" ++ Text.hexDigits c.toNat
    else c.toString

def stringText (value : String) : String :=
  "\"" ++ String.join (value.toList.map escapeChar) ++ "\""

def Number.text : Number → String
  | integer value => toString value
  | float value => value.text

mutual

def compact : Json → String
  | null => "null"
  | bool value => if value then "true" else "false"
  | number value => value.text
  | string value => stringText value
  | array items => "[" ++ ",".intercalate (compactItems items) ++ "]"
  | object members => "\x7b" ++ ",".intercalate (compactMembers members) ++ "\x7d"

def compactItems : List Json → List String
  | [] => []
  | item :: rest => compact item :: compactItems rest

def compactMembers : List (String × Json) → List String
  | [] => []
  | (key, value) :: rest => (stringText key ++ ":" ++ compact value) :: compactMembers rest

end

def lineStart (level : Nat) : String :=
  "\n" ++ String.ofList (List.replicate (2 * level) ' ')

mutual

/-- The text of a value with a line for each element and member. Empty lists and objects stay on their line. -/
def indented (level : Nat) : Json → String
  | null => "null"
  | bool value => if value then "true" else "false"
  | number value => value.text
  | string value => stringText value
  | array [] => "[]"
  | array (item :: rest) =>
    "[" ++ ",".intercalate (indentedItems (level + 1) (item :: rest)) ++ lineStart level ++ "]"
  | object [] => "\x7b\x7d"
  | object (member :: rest) =>
    "\x7b" ++ ",".intercalate (indentedMembers (level + 1) (member :: rest)) ++ lineStart level ++ "\x7d"

def indentedItems (level : Nat) : List Json → List String
  | [] => []
  | item :: rest => (lineStart level ++ indented level item) :: indentedItems level rest

def indentedMembers (level : Nat) : List (String × Json) → List String
  | [] => []
  | (key, value) :: rest =>
    (lineStart level ++ stringText key ++ ": " ++ indented level value) :: indentedMembers level rest

end

def pretty (value : Json) : String :=
  indented 0 value

/-- What a message calls a value that has the wrong type. -/
def description : Json → String
  | null => "null"
  | bool value => "boolean `" ++ (if value then "true" else "false") ++ "`"
  | number (.integer value) => "integer `" ++ toString value ++ "`"
  | number (.float value) => "floating point `" ++ value.text ++ "`"
  | string value => "string " ++ Text.quoted value
  | array _ => "sequence"
  | object _ => "map"

end FilterSql.Json
