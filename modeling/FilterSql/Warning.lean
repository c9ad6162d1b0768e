import FilterSql.Text.Case

/-!
# Shown warnings

Which warnings are shown. A filter is a list of directives with commas between them, each a level, the name of a
subject, or a subject with its level. Of the directives whose subject the warning's subject starts with, the one with
the longest subject decides, and of equal subjects the last one.
-/

set_option autoImplicit false

namespace FilterSql.Warning

/-- How much is shown of a subject. -/
inductive Level where
  | off
  | error
  | warn
  | info
  | debug
  | trace
  deriving DecidableEq, Repr

def Level.showsWarnings : Level → Bool
  | off => false
  | error => false
  | _ => true

/-- The level of a name in any case, or of a number. No name is a level too. -/
def Level.ofName? (name : String) : Option Level :=
  match Text.lowerName name with
  | "" => some error
  | "off" | "0" => some off
  | "error" | "1" => some error
  | "warn" | "2" => some warn
  | "info" | "3" => some info
  | "debug" | "4" => some debug
  | "trace" | "5" => some trace
  | _ => none

/-- The level at which a subject and the subjects below it are shown. No subject stands for all of them. -/
structure Directive where
  subject : String
  level : Level
  deriving DecidableEq, Repr

def Directive.ofText? (text : String) : Option Directive :=
  match text.splitOn "=" with
  | [word] =>
    match Level.ofName? word with
    | some level => some ⟨"", level⟩
    | none => some ⟨word, .trace⟩
  | [subject, level] => (Level.ofName? level).map fun level => ⟨subject, level⟩
  | _ => none

def deciding? (subject : String) (directives : List Directive) : Option Directive :=
  directives.foldl (fun best directive =>
    if subject.startsWith directive.subject then
      match best with
      | some other =>
        if directive.subject.length < other.subject.length then some other else some directive
      | none => some directive
    else best) none

def isShown (filter subject : String) : Bool :=
  let directives := ((filter.splitOn ",").filter (· ≠ "")).filterMap fun text =>
    Directive.ofText? text.trimAscii.toString
  match deciding? subject directives with
  | some directive => directive.level.showsWarnings
  | none => false

end FilterSql.Warning
