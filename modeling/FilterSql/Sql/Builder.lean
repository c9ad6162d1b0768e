import FilterSql.Sql.Backend
import FilterSql.Sql.FieldPath
import FilterSql.Text.Blank

/-!
# Statement builders

A builder collects SQL text and the arguments its placeholders stand for. Pieces of text are joined with a space
wherever they would otherwise run together.
-/

set_option autoImplicit false

namespace FilterSql.Sql

/-- Whether two pieces of text need a space between them: not after a blank or an opening parenthesis, and not before
a blank, a closing parenthesis or a comma. -/
def needsSpace (before after : String) : Bool :=
  match before.back?, after.front? with
  | some last, some first =>
    !(Text.isBlank last || last == '(' || Text.isBlank first || first == ')' || first == ',')
  | _, _ => false

def join (before after : String) : String :=
  if needsSpace before after then before ++ " " ++ after else before ++ after

/-- A statement being written. `offset` counts the arguments that were bound before its first one. -/
structure Builder where
  backend : Backend
  offset : Nat
  text : String
  arguments : Array Value

namespace Builder

def empty (backend : Backend) : Builder :=
  { backend, offset := 0, text := "", arguments := #[] }

def isEmpty (builder : Builder) : Bool :=
  builder.text == ""

/-- Number of the last argument bound so far. -/
def lastOrdinal (builder : Builder) : Nat :=
  builder.offset + builder.arguments.size

def appendLiteral (builder : Builder) (fragment : String) : Builder :=
  { builder with text := join builder.text fragment }

def appendArgument (builder : Builder) (value : Value) : Builder :=
  let ordinal := builder.lastOrdinal + 1
  { builder with
    text := join builder.text (builder.backend.placeholder ordinal)
    arguments := builder.arguments.push value }

/-- An empty builder that goes on numbering where this one stands. -/
def scratch (builder : Builder) : Builder :=
  { backend := builder.backend, offset := builder.lastOrdinal, text := "", arguments := #[] }

/-- Takes over all of a page that was written from this builder's scratch. -/
def takeOver (builder page : Builder) : Builder :=
  { builder with
    text := join builder.text page.text
    arguments := builder.arguments ++ page.arguments }

end Builder

/-- What a statement can be written to. -/
class Page (π : Type) where
  appendLiteral : π → String → π
  appendArgument : π → Value → π
  lastOrdinal : π → Nat
  scratch : π → π
  takeOver : π → π → π

instance : Page Builder where
  appendLiteral := Builder.appendLiteral
  appendArgument := Builder.appendArgument
  lastOrdinal := Builder.lastOrdinal
  scratch := Builder.scratch
  takeOver := Builder.takeOver

/-- Writing to a page. What fails half way leaves the page with all that it has written before. -/
abbrev Writing (π ε α : Type) := EStateM ε π α

namespace Writing

variable {π ε : Type} [Page π]

def literal (fragment : String) : Writing π ε Unit :=
  modify fun page => Page.appendLiteral page fragment

/-- Binds a value and refers to it. Gives the ordinal of the argument. -/
def argument (value : Value) : Writing π ε Nat :=
  modifyGet fun page =>
    let bound := Page.appendArgument page value
    (Page.lastOrdinal bound, bound)

/-- Writes on an empty page first. All of it is taken over, or nothing if the writing fails. -/
def subexpression (write : Writing π ε Unit) : Writing π ε Unit := fun page =>
  match write (Page.scratch page) with
  | .ok _ inner => .ok () (Page.takeOver page inner)
  | .error error _ => .error error page

def written (write : Writing π ε Unit) (page : π) : Except ε π :=
  match write page with
  | .ok _ written => .ok written
  | .error error _ => .error error

end Writing

namespace Builder

def appendSubexpression {ε : Type} (builder : Builder) (write : Builder → Except ε Builder) : Except ε Builder := do
  let page ← write builder.scratch
  .ok (builder.takeOver page)

end Builder

end FilterSql.Sql
