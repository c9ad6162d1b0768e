import FilterSql.Sql.Backend

/-!
# Placeholders

A placeholder is a sign and, unless the backend counts for itself, the digits of the ordinal.
-/

set_option autoImplicit false

namespace FilterSql.Backend

def sign : Backend → Char
  | postgres => '$'
  | sqlite | duckdb => '?'

def numeral : Backend → Nat → List Char
  | postgres, ordinal | sqlite, ordinal => Nat.toDigits 10 ordinal
  | duckdb, _ => []

theorem placeholder_toList (backend : Backend) (ordinal : Nat) :
    (backend.placeholder ordinal).toList = backend.sign :: backend.numeral ordinal := by
  cases backend with
  | postgres => simp [placeholder, sign, numeral, Nat.toString_eq_repr, Nat.toList_repr]
  | sqlite => simp [placeholder, sign, numeral, Nat.toString_eq_repr, Nat.toList_repr]
  | duckdb => simp [placeholder, sign, numeral]

theorem isDigit_of_mem_numeral {backend : Backend} {ordinal : Nat} {c : Char}
    (member : c ∈ backend.numeral ordinal) : c.isDigit = true := by
  cases backend with
  | postgres => exact Nat.isDigit_of_mem_toDigits (by decide) (by decide) member
  | sqlite => exact Nat.isDigit_of_mem_toDigits (by decide) (by decide) member
  | duckdb => cases member

theorem numeral_ne_nil {backend : Backend} (numbered : backend ≠ .duckdb) (ordinal : Nat) :
    backend.numeral ordinal ≠ [] := by
  cases backend with
  | postgres => exact Nat.toDigits_ne_nil
  | sqlite => exact Nat.toDigits_ne_nil
  | duckdb => exact absurd rfl numbered

end FilterSql.Backend
