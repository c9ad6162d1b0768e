/-!
# Limits

Bounds on untrusted input.
-/

set_option autoImplicit false

namespace FilterSql

structure Limits where
  /-- Greatest nesting of lists and objects in an expression. -/
  maxDepth : Nat := 100
  /-- Greatest size of an expression's text in bytes. -/
  maxInputBytes : Nat := 64 * 1024
  /-- Greatest number of ordering directives. -/
  maxOrderings : Nat := 50
  deriving DecidableEq, Repr, Inhabited

namespace Limits

/-- No greater depth limit is in force, whatever the settings: JSON texts are not read any deeper. -/
def greatestDepth : Nat := 127

def depthLimit (limits : Limits) : Nat :=
  min limits.maxDepth greatestDepth

end Limits

end FilterSql
