import FilterSql.Json.Shape
import FilterSql.Limits
import FilterSql.Schema.Resolve
import FilterSql.Sql.Builder

/-!
# Orderings

Orderings of the rows of a result: columns with a direction. Clients write each as a dotted path and `asc` or `desc`
in any case, with blanks between the two.
-/

set_option autoImplicit false

namespace FilterSql

open Schema (RecordType resolve)
open Sql (FieldPath Page)

structure Order where
  path : FieldPath
  descending : Bool
  deriving DecidableEq

namespace Order

def text (order : Order) : String :=
  order.path.text ++ " " ++ if order.descending then "desc" else "asc"

def isPathChar (c : Char) : Bool :=
  Schema.isWordChar c || c == '.'

def isGap (c : Char) : Bool :=
  c == '\t' || c == '\n' || c == '\x0c' || c == '\r' || c == ' '

/-- Whether a word is `desc` and not `asc`, in any case. -/
def direction? (word : List Char) : Option Bool :=
  let word := word.map Char.toLower
  if word = ['a', 's', 'c'] then some false
  else if word = ['d', 'e', 's', 'c'] then some true
  else none

def split? (directive : String) : Option (String × Bool) :=
  let chars := directive.toList
  let path := String.ofList (chars.takeWhile isPathChar)
  let rest := chars.dropWhile isPathChar
  let word := rest.dropWhile isGap
  if Schema.isDottedPath path ∧ word.length < rest.length then
    (direction? word).map fun descending => (path, descending)
  else none

variable {ρ : Type} [RecordType ρ]

def parse (schema : Option ρ) (directive : String) : Except CompileError Order :=
  match split? directive with
  | none => .error (.invalidOrdering directive)
  | some (path, descending) => do
    let resolved ← resolve schema path
    .ok ⟨resolved.path, descending⟩

end Order

/-- A sequence of orderings, the first of which decides first, with what directives are parsed against. -/
structure Orders (ρ : Type) where
  items : List Order
  schema : Option ρ
  maxOrderings : Nat

namespace Orders

variable {ρ : Type}

def empty (schema : Option ρ) : Orders ρ :=
  ⟨[], schema, ({} : Limits).maxOrderings⟩

def ofItems (items : List Order) : Orders ρ :=
  { empty none with items }

def withLimits (orders : Orders ρ) (limits : Limits) : Orders ρ :=
  { orders with maxOrderings := limits.maxOrderings }

def push (orders : Orders ρ) (order : Order) : Orders ρ :=
  { orders with items := orders.items ++ [order] }

/-- The orderings, or the given ones if there are none. -/
def orElse (orders : Orders ρ) (fallback : List Order) : Orders ρ :=
  if orders.items.isEmpty then { orders with items := fallback } else orders

def isEmpty (orders : Orders ρ) : Bool :=
  orders.items.isEmpty

/-- The clause that orders rows, or no text for no orderings. -/
def text (orders : Orders ρ) : String :=
  match orders.items with
  | [] => ""
  | items => "order by " ++ ", ".intercalate (items.map Order.text)

def appendTo {π : Type} [Page π] (orders : Orders ρ) (page : π) : π :=
  Page.appendLiteral page orders.text

/-- What may change orderings or fail. It leaves orderings behind in either case. -/
abbrev Parsing (ρ α : Type) := EStateM CompileError (Orders ρ) α

/-- The orderings that a parsing ends with, or why it fails. -/
def Parsing.outcome (parsing : Parsing ρ Unit) (orders : Orders ρ) : Except CompileError (Orders ρ) :=
  match parsing orders with
  | .ok _ changed => .ok changed
  | .error error _ => .error error

variable [RecordType ρ]

def readOrder (directive : String) : Parsing ρ Order := do
  let orders ← get
  ofExcept (Order.parse orders.schema directive)

/-- Replaces the orderings by those that the directives ask for. All of them are read before any is put in place. -/
def replace (directives : List String) : Parsing ρ Unit := do
  let orders ← get
  if orders.maxOrderings < directives.length then
    throw (.tooManyOrderings directives.length orders.maxOrderings)
  else
    let items ← directives.mapM readOrder
    modify fun orders => { orders with items }

def readDirectives : Json.Reader (List String) :=
  Json.readListOf (fun _ => Json.readStringValue) Json.maxNesting

/-- Replaces the orderings by those that the directives in a JSON text ask for. -/
def replaceJson (text : String) : Parsing ρ Unit := do
  let directives ← ofExcept ((Json.readAll readDirectives text).mapError .notJson)
  replace directives

def parse (orders : Orders ρ) (directives : List String) : Except CompileError (Orders ρ) :=
  (replace directives).outcome orders

def parseJson (orders : Orders ρ) (text : String) : Except CompileError (Orders ρ) :=
  (replaceJson text).outcome orders

inductive EmbeddedError where
  | notRead (error : Json.ParseError)
  | rejected (error : CompileError)
  deriving DecidableEq, Repr

def EmbeddedError.message : EmbeddedError → String
  | notRead error => error.message
  | rejected error => error.message

/-- Replaces the orderings by those that the directives at the start of a JSON text ask for. -/
def parseEmbedded (orders : Orders ρ) (text : String) : Except EmbeddedError (Orders ρ) := do
  let directives ← (Json.readStart readDirectives text).mapError .notRead
  (orders.parse directives).mapError .rejected

end Orders

end FilterSql
