import FilterSql.Proofs.Expr.Compile
import FilterSql.Schema.Loaded

/-!
# The rendering of an expression

What the text of an expression and its arguments should be, by recursion on the value that the expression is made from.
Every space is written out, and the placeholders are counted from left to right. No builder takes part.
-/

set_option autoImplicit false

namespace FilterSql

open Schema (RecordType resolve)
open Sql (Token Value)
open Sql.Token (holes spell)

/-- An operator with the renderings of its operands, if it takes that many. -/
def Operator.render? (operator : Operator) (operands : List String) : Option String :=
  match operator.form, operands with
  | .leading, [operand] => some ("(" ++ operator.name ++ " " ++ operand ++ ")")
  | .trailing, [operand] => some ("(" ++ operand ++ " " ++ operator.name ++ ")")
  | .joining, first :: second :: rest =>
    some ("(" ++ (" " ++ operator.name ++ " ").intercalate (first :: second :: rest) ++ ")")
  | .membership, [value, array] => some ("(" ++ value ++ " = any(" ++ array ++ "))")
  | .range, [value, lower, upper] => some ("(" ++ value ++ " between " ++ lower ++ " and " ++ upper ++ ")")
  | _, _ => none

namespace Expr

variable {ρ : Type} [RecordType ρ]

mutual

/-- The rendering of a value behind `bound` placeholders, and how many placeholders there are behind it. -/
def rendering? (schema : Option ρ) (backend : Backend) (bound : Nat) : Json → Option (String × Nat)
  | .object _ => none
  | .string name => do
    let resolved ← (resolve schema name).toOption
    some (resolved.path.text, bound)
  | .array (.string head :: operands) =>
    match Operator.ofName? head with
    | none => some (backend.placeholder (bound + 1), bound + 1)
    | some operator => do
      let (texts, reached) ← renderings? schema backend bound operands
      let text ← operator.render? texts
      some (text, reached)
  | .array _ => none
  | _ => some (backend.placeholder (bound + 1), bound + 1)

def renderings? (schema : Option ρ) (backend : Backend) (bound : Nat) : List Json → Option (List String × Nat)
  | [] => some ([], bound)
  | node :: rest => do
    let (text, reached) ← rendering? schema backend bound node
    let (texts, last) ← renderings? schema backend reached rest
    some (text :: texts, last)

end

def castLeaf? (schema : Option ρ) (name : String) : List Json → Option Value
  | [payload] => do
    let resolved ← (resolve schema name).toOption
    (resolved.field.decode payload).toOption
  | _ => none

mutual

/-- The values of the scalars and of the casts at the leaves, from left to right. -/
def leafValues? (schema : Option ρ) : Json → Option (List Value)
  | .object _ => none
  | .string _ => some []
  | .array (.string head :: operands) =>
    match Operator.ofName? head with
    | none => (castLeaf? schema head operands).map fun value => [value]
    | some _ => leafValuesOfAll? schema operands
  | .array _ => none
  | scalar => some [.ofLiteral scalar]

def leafValuesOfAll? (schema : Option ρ) : List Json → Option (List Value)
  | [] => some []
  | node :: rest => do
    let values ← leafValues? schema node
    let others ← leafValuesOfAll? schema rest
    some (values ++ others)

end

end Expr

/-! ## Renderings are spelt -/

def Sql.Token.spellEach (backend : Backend) (bound : Nat) : List (List Token) → List String
  | [] => []
  | layout :: rest => spell backend bound layout :: spellEach backend (bound + holes layout) rest

open Sql.Token (spellEach)

private theorem intercalate_spellEach (operator : Operator) (backend : Backend) (bound : Nat) (first : List Token)
    (rest : List (List Token)) :
    (" " ++ operator.name ++ " ").intercalate (spellEach backend bound (first :: rest)) =
      spell backend bound (first ++ rest.flatMap (.space :: .word operator :: .space :: ·)) := by
  induction rest generalizing bound first with
  | nil => simp [spellEach]
  | cons second rest ih =>
      have others := ih (bound + holes first) second
      rw [spellEach] at others ⊢
      rw [spellEach, String.intercalate_cons_cons, others]
      simp [spell, Token.spell_append, Token.spelling, Token.ordinalAfter, String.append_assoc]

theorem Operator.render?_spellEach {operator : Operator} {layouts : List (List Token)}
    (takes : operator.Takes layouts) (backend : Backend) (bound : Nat) :
    operator.render? (spellEach backend bound layouts) = some (spell backend bound (operator.layOut layouts)) := by
  cases takes with
  | leading form =>
      simp [render?, form, layOut, spellEach, spell, Token.spell_append, Token.spelling, Token.ordinalAfter,
        String.append_assoc]
  | trailing form =>
      simp [render?, form, layOut, spellEach, spell, Token.spell_append, Token.spelling, Token.ordinalAfter,
        String.append_assoc]
  | @joining first second rest form =>
      have joined := intercalate_spellEach operator backend bound first (second :: rest)
      rw [spellEach, spellEach] at joined ⊢
      simp only [render?, form, joined]
      simp [layOut, form, spell, Token.spell_append, Token.spelling, Token.ordinalAfter, String.append_assoc]
  | membership form =>
      have words : ∀ text, " = any(" ++ text = " " ++ ("=" ++ (" " ++ ("any" ++ ("(" ++ text)))) := by
        simp [← String.append_assoc]
      have ends : "))" = ")" ++ ")" := rfl
      simp [render?, form, layOut, spellEach, spell, Token.spell_append, Token.spelling, Token.ordinalAfter,
        String.append_assoc, name, words, ends]
  | range form =>
      have between : ∀ text, " between " ++ text = " " ++ ("between" ++ (" " ++ text)) := by
        simp [← String.append_assoc]
      have and : ∀ text, " and " ++ text = " " ++ ("and" ++ (" " ++ text)) := by
        simp [← String.append_assoc]
      simp [render?, form, layOut, spellEach, spell, Token.spell_append, Token.spelling, Token.ordinalAfter,
        String.append_assoc, name, between, and, Nat.add_assoc]

namespace Expr

variable {ρ : Type} [RecordType ρ]

/-- A node with its skeleton is rendered as the tokens of the skeleton are spelt, behind any number of placeholders. -/
def Rendered (schema : Option ρ) (backend : Backend) (node : Json) (found : Skeleton Value) : Prop :=
  ∀ bound, rendering? schema backend bound node =
    some (spell backend bound found.tokens, bound + holes found.tokens)

private theorem renderings_eq {schema : Option ρ} {backend : Backend} {nodes : List Json}
    {parts : List (Skeleton Value)} (each : List.Forall₂ (Rendered schema backend) nodes parts) (bound : Nat) :
    renderings? schema backend bound nodes =
      some (spellEach backend bound (parts.map Skeleton.tokens),
        bound + holes (parts.map Skeleton.tokens).flatten) := by
  induction each generalizing bound with
  | nil => rfl
  | cons head _ ih =>
      simp [renderings?, head bound, ih, spellEach, Nat.add_assoc]

theorem rendering_eq {schema : Option ρ} {limit depth : Nat} {node : Json} {found : Skeleton Value}
    (accepted : skeleton schema limit depth node = .ok found) (backend : Backend) :
    Rendered schema backend node found := by
  refine skeleton_induct (motive := Rendered schema backend) ?_ ?_ ?_ ?_ accepted
  · intro node scalar bound
    cases scalar <;> simp [rendering?, spell, Token.spelling]
  · intro name resolved known bound
    have noHoles : holes resolved.path.tokens = 0 := resolved.path.holes_tokens
    simp [rendering?, known, Except.toOption, resolved.path.spell_tokens, noHoles]
  · intro name payload value unknown _ bound
    simp [rendering?, unknown, spell, Token.spelling]
  · intro operator nodes parts takes each bound
    have texts := renderings_eq each bound
    have text := Operator.render?_spellEach ((takes.of_forall₂ each).map Skeleton.tokens) backend bound
    simp [rendering?, Operator.ofName?_name, texts, text, Operator.holes_layOut]

private theorem castLeaf?_eq {schema : Option ρ} {name : String} {payload : Json} {value : Value}
    (decoded : castValue schema name [payload] = .ok value) : castLeaf? schema name [payload] = some value := by
  have casting := castValue_casting schema name [payload]
  rw [decoded] at casting
  cases casting with
  | decoded known held => simp [castLeaf?, known, held, Except.toOption]

theorem leafValues_eq {schema : Option ρ} {limit depth : Nat} {node : Json} {found : Skeleton Value}
    (accepted : skeleton schema limit depth node = .ok found) : leafValues? schema node = some found.values := by
  refine skeleton_induct (motive := fun node found => leafValues? schema node = some found.values) ?_ ?_ ?_ ?_
    accepted
  · intro node scalar
    cases scalar <;> rfl
  · exact fun _ _ _ => rfl
  · intro name payload value unknown decoded
    simp [leafValues?, unknown, castLeaf?_eq decoded]
  · intro operator nodes parts takes each
    clear takes
    have all : leafValuesOfAll? schema nodes = some (parts.flatMap Skeleton.values) := by
      induction each with
      | nil => rfl
      | cons head _ ih => simp [leafValuesOfAll?, head, ih]
    simpa [leafValues?, Operator.ofName?_name] using all

/-- What is compiled is the rendering of the value and the values of its leaves. -/
theorem compile_rendering {expr : Expr ρ} {backend : Backend} {compiled : Compiled} {node : Json}
    (taken : read expr.source expr.isBoolean expr.limits = .ok (some node))
    (accepted : expr.compile backend = .ok compiled) :
    rendering? expr.schema backend 0 node = some (compiled.text, compiled.arguments.length) ∧
      leafValues? expr.schema node = some compiled.arguments := by
  cases compile_ok accepted with
  | truth other => simp [other] at taken
  | @node same found other known =>
      obtain rfl : same = node := by simpa [other] using taken
      have text := rendering_eq known backend 0
      rw [Nat.zero_add, (admitted_of_skeleton known).holes_tokens] at text
      exact ⟨text, leafValues_eq known⟩

/-- The upper bound of the range is an operator, and the lower one is cast to what the column holds. -/
def customerRange : Json :=
  .array [.string "between", .string "customer.age", .array [.string "customer.age", .number (.integer 18)],
    .array [.string "not", .null]]

def customersWithin : Expr Schema where
  source := some (.value customerRange)
  schema := some (.mk "Order" [.record "customer" "buyer" false
    (.mk "Customer" [.scalar "age" "age" .integer false false])])

theorem compile_rendering_customersWithin :
    ∃ compiled, customersWithin.compile .sqlite = .ok compiled ∧
      compiled.text = "((\"buyer\").\"age\" between ?1 and (not ?2))" ∧
      rendering? customersWithin.schema .sqlite 0 customerRange = some (compiled.text, compiled.arguments.length) ∧
      leafValues? customersWithin.schema customerRange = some compiled.arguments := by
  obtain ⟨compiled, accepted, text⟩ : ∃ compiled, customersWithin.compile .sqlite = .ok compiled ∧
      compiled.text = "((\"buyer\").\"age\" between ?1 and (not ?2))" := compile_of_text (by decide +kernel)
  exact ⟨compiled, accepted, text, compile_rendering rfl accepted⟩

end Expr

end FilterSql
