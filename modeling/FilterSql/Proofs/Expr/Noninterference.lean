import FilterSql.Proofs.Expr.Readback
import FilterSql.Schema.Loaded

/-!
# Literals and payloads do not interfere

The holes of an expression are its literals and the payloads of its casts. Two expressions that are equal but for what
is in their holes have the same text, and an argument of one differs from that of the other only where the holes do.
What literal stands in a hole has no say in whether an expression is accepted.
-/

set_option autoImplicit false

namespace FilterSql.Expr

open Schema (RecordType resolve)
open Sql (Value)
open Sql.Token (spell)

/-! ## Holes -/

/-- What a client puts in a place that an argument is bound for. -/
inductive Hole where
  | literal (value : Json)
  | payload (field : String) (value : Json)

mutual

/-- The holes of an expression from left to right. -/
def holesIn : Json → List Hole
  | .array items => holesInList items
  | .string _ => []
  | .object _ => []
  | scalar => [.literal scalar]

def holesInList : List Json → List Hole
  | .string head :: operands =>
    if (Operator.ofName? head).isSome then holesInAll operands
    else
      match operands with
      | [value] => [.payload head value]
      | _ => []
  | _ => []

def holesInAll : List Json → List Hole
  | [] => []
  | node :: rest => holesIn node ++ holesInAll rest

end

section Erasure

variable (payload : Json → Json)

def erasePayload : List Json → List Json
  | [value] => [payload value]
  | arguments => arguments

mutual

/-- The expression with null for each of its literals and with other payloads in its casts. -/
def erase : Json → Json
  | .array items => .array (eraseList items)
  | .string name => .string name
  | .object members => .object members
  | _ => .null

def eraseList : List Json → List Json
  | .string head :: operands =>
    .string head :: if (Operator.ofName? head).isSome then eraseAll operands else erasePayload payload operands
  | items => items

def eraseAll : List Json → List Json
  | [] => []
  | node :: rest => erase node :: eraseAll rest

end

theorem length_eraseAll (nodes : List Json) : (eraseAll payload nodes).length = nodes.length := by
  induction nodes with
  | nil => rfl
  | cons node rest ih => simp [eraseAll, ih]

end Erasure

theorem erasePayload_id (arguments : List Json) : erasePayload id arguments = arguments := by
  unfold erasePayload
  split <;> rfl

variable {ρ : Type} [RecordType ρ]

/-! ## The text -/

private theorem shapes_eraseAll {schema : Option ρ} {payload : Json → Json} {nodes : List Json}
    (each : ∀ node ∈ nodes, shape? schema (erase payload node) = shape? schema node) :
    shapes? schema (eraseAll payload nodes) = shapes? schema nodes := by
  induction nodes with
  | nil => rfl
  | cons node rest ih =>
      obtain ⟨first, others⟩ := List.forall_mem_cons.mp each
      simp only [eraseAll, shapes?, first, ih others]

theorem shape_erase (schema : Option ρ) (payload : Json → Json) (node : Json) :
    shape? schema (erase payload node) = shape? schema node := by
  induction node with
  | null => rfl
  | bool value => rfl
  | number value => rfl
  | string name => rfl
  | object members => rfl
  | array items ih =>
      cases items with
      | nil => rfl
      | cons head operands =>
          cases head with
          | null | bool | number | array | object => rfl
          | string name =>
              have below : shapes? schema (eraseAll payload operands) = shapes? schema operands :=
                shapes_eraseAll fun operand member => ih operand (.tail _ member)
              cases known : Operator.ofName? name with
              | none => simp [erase, eraseList, shape?, known]
              | some operator => simp [erase, eraseList, shape?, known, below]

theorem bare_skeletons_cons (schema : Option ρ) (limit depth : Nat) (node : Json) (rest : List Json) :
    (skeletons schema limit depth (node :: rest)).map (List.map Skeleton.bare) = (do
      let first ← (skeleton schema limit depth node).map Skeleton.bare
      let others ← (skeletons schema limit depth rest).map (List.map Skeleton.bare)
      .ok (first :: others)) := by
  rw [skeletons_cons]
  cases skeleton schema limit depth node with
  | error error => rfl
  | ok found => cases skeletons schema limit depth rest <;> rfl

private theorem skeletons_eraseAll {schema : Option ρ} {limit depth : Nat} {nodes : List Json}
    (each : ∀ node ∈ nodes, (skeleton schema limit depth (erase id node)).map Skeleton.bare =
      (skeleton schema limit depth node).map Skeleton.bare) :
    (skeletons schema limit depth (eraseAll id nodes)).map (List.map Skeleton.bare) =
      (skeletons schema limit depth nodes).map (List.map Skeleton.bare) := by
  induction nodes with
  | nil => rfl
  | cons node rest ih =>
      obtain ⟨first, others⟩ := List.forall_mem_cons.mp each
      rw [eraseAll, bare_skeletons_cons, bare_skeletons_cons, first, ih others]

theorem bare_skeleton_operation {limit depth : Nat} (shallow : ¬ limit < depth + 1) (schema : Option ρ)
    {name : String} {operator : Operator} (known : Operator.ofName? name = some operator) (operands : List Json) :
    (skeleton schema limit depth (.array (.string name :: operands))).map Skeleton.bare =
      if operator.form.admits operands.length then
        ((skeletons schema limit (depth + 1) operands).map (List.map Skeleton.bare)).map (.operation operator)
      else .error (.arityMismatch operator operands.length) := by
  simp only [skeleton, shallow, if_false, known]
  split
  · cases skeletons schema limit (depth + 1) operands with
    | error error => rfl
    | ok found => simp [bind, Except.bind, Except.map]
  · rfl

/-- Nothing of the literals is in the skeleton of an expression but its values, and nothing in its rejection. -/
theorem bare_skeleton_erase (schema : Option ρ) (limit depth : Nat) (node : Json) :
    (skeleton schema limit depth (erase id node)).map Skeleton.bare =
      (skeleton schema limit depth node).map Skeleton.bare := by
  induction node generalizing depth with
  | null => rfl
  | bool value => rfl
  | number value => rfl
  | string name => rfl
  | object members => rfl
  | array items ih =>
      cases items with
      | nil => rfl
      | cons head operands =>
          cases head with
          | null | bool | number | array | object => rfl
          | string name =>
              cases known : Operator.ofName? name with
              | none => simp [erase, eraseList, known, erasePayload_id]
              | some operator =>
                  have erased : erase id (.array (.string name :: operands)) =
                      .array (.string name :: eraseAll id operands) := by simp [erase, eraseList, known]
                  have below := skeletons_eraseAll fun operand member =>
                    ih operand (.tail (.string name) member) (depth + 1)
                  rw [erased]
                  by_cases deep : limit < depth + 1
                  · simp [skeleton, deep]
                  · rw [bare_skeleton_operation deep schema known, bare_skeleton_operation deep schema known,
                      length_eraseAll, below]

/-! ## The arguments -/

/-- The value is the one that is bound for the hole. -/
def Binds (schema : Option ρ) : Hole → Value → Prop
  | .literal scalar, value => value = .ofLiteral scalar
  | .payload field literal, value => castValue schema field [literal] = .ok value

theorem binds_unique {schema : Option ρ} {hole : Hole} {value other : Value} (binds : Binds schema hole value)
    (again : Binds schema hole other) : value = other := by
  cases hole with
  | literal scalar => exact binds.trans again.symm
  | payload field literal =>
      have decoded : castValue schema field [literal] = .ok value := binds
      exact Except.ok.inj (decoded.symm.trans again)

theorem holesIn_bind {schema : Option ρ} {limit depth : Nat} {node : Json} {found : Skeleton Value}
    (accepted : skeleton schema limit depth node = .ok found) :
    List.Forall₂ (Binds schema) (holesIn node) found.values := by
  refine skeleton_induct (motive := fun node found => List.Forall₂ (Binds schema) (holesIn node) found.values)
    ?_ ?_ ?_ ?_ accepted
  · intro node scalar
    cases scalar <;> exact .cons rfl .nil
  · intro name resolved known
    exact .nil
  · intro name payload value unknown decoded
    have hole : holesIn (.array [.string name, payload]) = [.payload name payload] := by
      simp [holesIn, holesInList, unknown]
    rw [hole]
    exact .cons decoded .nil
  · intro operator nodes parts takes each
    -- Operand by operand; what the operator takes is about all of them.
    clear takes
    have all : List.Forall₂ (Binds schema) (holesInAll nodes) (parts.flatMap Skeleton.values) := by
      induction each with
      | nil => exact .nil
      | cons head _ ih => exact List.rel_append head ih
    simpa [holesIn, holesInList, Operator.ofName?_name] using all

private theorem forall₂_getElem? {α β : Type} {related : α → β → Prop} {lefts : List α} {rights : List β}
    (each : List.Forall₂ related lefts rights) (index : Nat) : Option.Rel related lefts[index]? rights[index]? := by
  induction each generalizing index with
  | nil => exact .none
  | cons head _ ih =>
      cases index with
      | zero => exact .some head
      | succ index => exact ih index

theorem values_agree {schema : Option ρ} {lefts rights : List Hole} {values others : List Value}
    (left : List.Forall₂ (Binds schema) lefts values) (right : List.Forall₂ (Binds schema) rights others)
    {index : Nat} (same : lefts[index]? = rights[index]?) : values[index]? = others[index]? := by
  have first := forall₂_getElem? left index
  have second := forall₂_getElem? right index
  rw [same] at first
  generalize rights[index]? = hole at first second
  generalize values[index]? = value at first ⊢
  generalize others[index]? = other at second ⊢
  cases first with
  | none =>
      cases second
      rfl
  | some binds =>
      cases second with
      | some again => exact congrArg some (binds_unique binds again)

/-! ## Two expressions -/

/-- What two compiled texts have in common when they come from expressions that are equal but for their holes. -/
structure Indistinct (left right : Json) (first second : Compiled) : Prop where
  text : first.text = second.text
  count : first.arguments.length = second.arguments.length
  /-- An argument hangs on its own hole only. -/
  arguments : ∀ index : Nat, (holesIn left)[index]? = (holesIn right)[index]? →
    first.arguments[index]? = second.arguments[index]?

theorem indistinct_of_erase {expr : Expr ρ} {backend : Backend} {left right : Json} {first second : Compiled}
    {payload : Json → Json} (same : erase payload left = erase payload right)
    (leftAccepted : (expr.withValue left).compile backend = .ok first)
    (rightAccepted : (expr.withValue right).compile backend = .ok second) : Indistinct left right first second := by
  rw [compile_withValue] at leftAccepted rightAccepted
  obtain ⟨found, known, rfl⟩ := ok_of_map leftAccepted
  obtain ⟨other, met, rfl⟩ := ok_of_map rightAccepted
  have bare : found.bare = other.bare := by
    have shapes := congrArg (shape? expr.schema) same
    rw [shape_erase, shape_erase, shape_eq known, shape_eq met] at shapes
    exact Option.some.inj shapes
  have tokens : found.tokens = other.tokens := by
    rw [← found.tokens_bare, bare, other.tokens_bare]
  refine ⟨by rw [tokens], ?_, fun index hole => values_agree (holesIn_bind known) (holesIn_bind met) hole⟩
  rw [← (admitted_of_skeleton known).holes_tokens, tokens, (admitted_of_skeleton met).holes_tokens]

theorem text_withValue (expr : Expr ρ) (node : Json) (backend : Backend) :
    ((expr.withValue node).compile backend).map (·.text) =
      ((skeleton expr.schema expr.limits.depthLimit 0 node).map Skeleton.bare).map fun shape =>
        spell backend 0 shape.tokens := by
  rw [compile_withValue]
  cases skeleton expr.schema expr.limits.depthLimit 0 node with
  | error error => rfl
  | ok found => simp only [Except.map, found.tokens_bare]

/-- Expressions that are equal but for their holes are compiled to the same text with as many arguments, of which only
those differ whose holes do. If they are equal but for their literals, one is compiled iff the other is, and else both
are rejected with the same error. -/
theorem compile_erase (expr : Expr ρ) (backend : Backend) (left right : Json) :
    (erase (fun _ => .null) left = erase (fun _ => .null) right → ∀ first second,
      (expr.withValue left).compile backend = .ok first → (expr.withValue right).compile backend = .ok second →
        Indistinct left right first second) ∧
    (erase id left = erase id right →
      ((expr.withValue left).compile backend).map (·.text) =
        ((expr.withValue right).compile backend).map (·.text)) := by
  refine ⟨fun same first second accepted other => indistinct_of_erase same accepted other, fun same => ?_⟩
  rw [text_withValue, text_withValue, ← bare_skeleton_erase, same, bare_skeleton_erase]

def textColumn : Expr Schema where
  schema := some (.mk "Row" [.scalar "a" "a" .text false false])

/-- The column is to be the given text, and a flag set. -/
def pinned (payload flag : Json) : Json :=
  .array [.string "and", .array [.string "=", .string "a", .array [.string "a", payload]], flag]

theorem compile_erase_pinned :
    ∃ first second, (textColumn.withValue (pinned (.string "x") (.bool true))).compile .duckdb = .ok first ∧
      (textColumn.withValue (pinned (.string "') or 1 = 1") .null)).compile .duckdb = .ok second ∧
      Indistinct (pinned (.string "x") (.bool true)) (pinned (.string "') or 1 = 1") .null) first second ∧
      ((textColumn.withValue (pinned (.string "x") (.bool true))).compile .duckdb).map (·.text) =
        ((textColumn.withValue (pinned (.string "x") .null)).compile .duckdb).map (·.text) := by
  have left : ((textColumn.withValue (pinned (.string "x") (.bool true))).compile .duckdb).toOption.map (·.text) =
      some "((\"a\" = ?) and ?)" := by decide +kernel
  have right : ((textColumn.withValue (pinned (.string "') or 1 = 1") .null)).compile .duckdb).toOption.map (·.text) =
      some "((\"a\" = ?) and ?)" := by decide +kernel
  obtain ⟨first, accepted, _⟩ := compile_of_text left
  obtain ⟨second, other, _⟩ := compile_of_text right
  exact ⟨first, second, accepted, other, (compile_erase _ _ _ _).1 (by decide +kernel) _ _ accepted other,
    (compile_erase _ _ _ _).2 (by decide +kernel)⟩

end FilterSql.Expr
