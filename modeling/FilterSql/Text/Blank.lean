/-!
# Blank characters

The characters with the Unicode property White_Space, and the trimming of text that starts with them.
-/

set_option autoImplicit false

namespace FilterSql.Text

/-- Holds of the 25 characters with the property White_Space. -/
def isBlank (c : Char) : Bool :=
  let code := c.toNat
  (9 ≤ code && code ≤ 13) || code == 0x20 || code == 0x85 || code == 0xA0 || code == 0x1680 ||
    (0x2000 ≤ code && code ≤ 0x200A) || code == 0x2028 || code == 0x2029 || code == 0x202F ||
    code == 0x205F || code == 0x3000

def trimLeft (text : List Char) : List Char :=
  text.dropWhile isBlank

/-- Holds of a text without any visible content. -/
def allBlank (text : String) : Bool :=
  text.toList.all isBlank

end FilterSql.Text
