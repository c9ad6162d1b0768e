import FilterSql.CompileError

/-!
# Nesting of a raw text

Deeply nested input is rejected before it is read. Brackets are counted in the raw text, except inside strings; the
text need not be JSON at all.
-/

set_option autoImplicit false

namespace FilterSql.Expr

/-- Where a scan of a text stands with respect to strings. -/
inductive ScanMode where
  | outside
  | inString
  | escaped
  deriving DecidableEq, Repr

/-- Whether no more than `limit` brackets are ever open, from a place of the text where `depth` are open. A closing
bracket too many is not held against the text. -/
def scan (limit : Nat) : ScanMode → (depth : Nat) → List Char → Bool
  | _, _, [] => true
  | .escaped, depth, _ :: rest => scan limit .inString depth rest
  | .inString, depth, c :: rest =>
    if c = '\\' then scan limit .escaped depth rest
    else if c = '"' then scan limit .outside depth rest
    else scan limit .inString depth rest
  | .outside, depth, c :: rest =>
    if c = '"' then scan limit .inString depth rest
    else if c = '[' ∨ c = '\x7b' then depth < limit && scan limit .outside (depth + 1) rest
    else if c = ']' ∨ c = '\x7d' then scan limit .outside (depth - 1) rest
    else scan limit .outside depth rest

def checkNesting (text : String) (limit : Nat) : Except CompileError Unit :=
  if scan limit .outside 0 text.toList then .ok () else .error (.tooDeep limit)

end FilterSql.Expr
