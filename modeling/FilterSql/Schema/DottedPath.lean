/-!
# Dotted paths

The paths by which clients refer to fields: words of ASCII letters, digits and underscores with a point between every
two of them.
-/

set_option autoImplicit false

namespace FilterSql.Schema

def isWordChar (c : Char) : Bool :=
  c.isAlphanum || c == '_'

/-- Reads a path from left to right. A word has begun iff `inWord`. -/
def acceptsPath : (inWord : Bool) → List Char → Bool
  | inWord, [] => inWord
  | inWord, c :: rest =>
    if isWordChar c then acceptsPath true rest
    else inWord && c == '.' && acceptsPath false rest

/-- Holds of the words with a point between every two of them. -/
def isDottedPath (path : String) : Bool :=
  acceptsPath false path.toList

def splitAtPoints : List Char → List (List Char)
  | [] => [[]]
  | c :: rest =>
    if c = '.' then [] :: splitAtPoints rest
    else
      match splitAtPoints rest with
      | [] => [[c]]
      | first :: others => (c :: first) :: others

def pathSegments (path : String) : List String :=
  (splitAtPoints path.toList).map String.ofList

end FilterSql.Schema
