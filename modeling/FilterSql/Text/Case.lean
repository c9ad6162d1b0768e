/-!
# Names in any case

Lower case as far as it yields ASCII letters, for names that are compared in any case.
-/

set_option autoImplicit false

namespace FilterSql.Text

/-- The lower-case letter of an ASCII capital, and of the Kelvin sign, the only other character whose lower case is an
ASCII letter. Every other character is left alone. -/
def lowerLetter (c : Char) : Char :=
  if c = '\u212A' then 'k' else c.toLower

def lowerName (name : String) : String :=
  String.ofList (name.toList.map lowerLetter)

end FilterSql.Text
