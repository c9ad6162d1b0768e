import FilterSql.Expr.Decode
import FilterSql.Expr.Nesting
import FilterSql.Json.Reader
import FilterSql.Limits

/-!
# Expressions

An expression awaiting compilation, from a text or from a JSON value, with the record type that its names refer to.
-/

set_option autoImplicit false

namespace FilterSql

open Schema (RecordType)
open Sql (Builder Page Value Writing)

inductive Source where
  | text (text : String)
  | value (value : Json)
  deriving Repr

/-- An expression. A blank text stands for truth where a Boolean is asked for, and no source is a blank text. -/
structure Expr (ρ : Type) where
  source : Option Source := none
  schema : Option ρ := none
  isBoolean : Bool := false
  limits : Limits := {}

structure Compiled where
  text : String
  arguments : List Value
  deriving Repr

namespace Expr

variable {ρ π : Type}

/-- The expression with the JSON value of a text, taken without any limit of its own. -/
def ofJson (text : String) : Except Json.ParseError (Expr ρ) := do
  let value ← Json.parse text
  .ok { source := some (.value value) }

/-- The value of a source within the limits. Nothing stands for a blank Boolean. -/
def read (source : Option Source) (isBoolean : Bool) (limits : Limits) : Except CompileError (Option Json) :=
  match source with
  | some (.value value) => .ok (some value)
  | some (.text text) => readText text
  | none => readText ""
where
  readText (text : String) : Except CompileError (Option Json) := do
    if limits.maxInputBytes < text.utf8ByteSize then
      .error (.inputTooLarge text.utf8ByteSize limits.maxInputBytes)
    else if Text.allBlank text then
      if isBoolean then .ok none else .error .emptyExpression
    else
      checkNesting text limits.depthLimit
      let value ← (Json.parse text).mapError .notJson
      .ok (some value)

variable [RecordType ρ] [Page π]

/-- Writes the expression. Its placeholders go on from the arguments of the page. -/
def write (expr : Expr ρ) : Writing π CompileError Unit := do
  match ← ofExcept (read expr.source expr.isBoolean expr.limits) with
  | none => Writing.literal "true"
  | some node => Writing.subexpression (decode expr.schema expr.limits.depthLimit 0 node)

def appendTo (expr : Expr ρ) (page : π) : Except CompileError π :=
  expr.write.written page

def compile (expr : Expr ρ) (backend : Backend) : Except CompileError Compiled := do
  let builder ← expr.appendTo (Builder.empty backend)
  .ok ⟨builder.text, builder.arguments.toList⟩

def display (expr : Expr ρ) : String :=
  match expr.compile .postgres with
  | .ok compiled => compiled.text
  | .error error => "invalid expression: " ++ error.message

end Expr

end FilterSql
