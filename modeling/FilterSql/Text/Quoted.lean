import FilterSql.Text.Unshown

/-!
# Quoted text

How a name or an input is quoted inside a message: between double quotes, with the quote, the backslash and
everything invisible escaped.
-/

set_option autoImplicit false

namespace FilterSql.Text

def hexDigits (code : Nat) : String :=
  String.ofList (Nat.toDigits 16 code)

def escapeChar (c : Char) : String :=
  match c with
  | '\x00' => "\\0"
  | '\t' => "\\t"
  | '\n' => "\\n"
  | '\r' => "\\r"
  | '"' => "\\\""
  | '\\' => "\\\\"
  | _ => if isUnshown c then "\\u\x7b" ++ hexDigits c.toNat ++ "\x7d" else c.toString

/-- The text between double quotes, every character escaped where it would not be seen or would end the quote. -/
def quoted (text : String) : String :=
  "\"" ++ String.join (text.toList.map escapeChar) ++ "\""

end FilterSql.Text
