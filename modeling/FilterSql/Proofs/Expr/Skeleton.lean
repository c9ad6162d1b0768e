import FilterSql.Expr.Decode
import FilterSql.Proofs.Sql.Writing
import Mathlib.Data.List.Forall2

/-!
# Skeletons

The skeleton of an expression is the tree of its operators with the columns and the values at its leaves. It is all
that an expression that is accepted writes, and its rejection is the rejection of the expression: the builder that is
written to has no say in either.
-/

set_option autoImplicit false

namespace FilterSql

open Sql (FieldPath Fragment Piece Value Writing)

/-- The operands that an operator takes, by the form it is written in. -/
inductive Operator.Takes (operator : Operator) {α : Type} : List α → Prop where
  | leading {operand : α} : operator.form = .leading → Takes operator [operand]
  | trailing {operand : α} : operator.form = .trailing → Takes operator [operand]
  | joining {first second : α} {rest : List α} : operator.form = .joining → Takes operator (first :: second :: rest)
  | membership {value array : α} : operator.form = .membership → Takes operator [value, array]
  | range {value lower upper : α} : operator.form = .range → Takes operator [value, lower, upper]

theorem Operator.takes_of_admits {operator : Operator} {α : Type} {operands : List α}
    (admitted : operator.form.admits operands.length = true) : operator.Takes operands := by
  match form : operator.form, operands with
  | .leading, [operand] => exact .leading form
  | .trailing, [operand] => exact .trailing form
  | .joining, first :: second :: rest => exact .joining form
  | .membership, [value, array] => exact .membership form
  | .range, [value, lower, upper] => exact .range form
  | .leading, [] | .leading, _ :: _ :: _ | .trailing, [] | .trailing, _ :: _ :: _ | .joining, [] | .joining, [_] |
    .membership, [] | .membership, [_] | .membership, _ :: _ :: _ :: _ | .range, [] | .range, [_] | .range, [_, _] |
    .range, _ :: _ :: _ :: _ :: _ => simp [form, Form.admits] at admitted

theorem Operator.Takes.of_forall₂ {operator : Operator} {α β : Type} {related : α → β → Prop} {lefts : List α}
    {rights : List β} (takes : operator.Takes lefts) (each : List.Forall₂ related lefts rights) :
    operator.Takes rights := by
  cases takes with
  | leading form =>
      obtain _ | ⟨_, _ | _⟩ := each
      exact .leading form
  | trailing form =>
      obtain _ | ⟨_, _ | _⟩ := each
      exact .trailing form
  | joining form =>
      obtain _ | ⟨_, _ | _⟩ := each
      exact .joining form
  | membership form =>
      obtain _ | ⟨_, _ | ⟨_, _ | _⟩⟩ := each
      exact .membership form
  | range form =>
      obtain _ | ⟨_, _ | ⟨_, _ | ⟨_, _ | _⟩⟩⟩ := each
      exact .range form

theorem Operator.Takes.map {operator : Operator} {α β : Type} {operands : List α} (takes : operator.Takes operands)
    (f : α → β) : operator.Takes (operands.map f) :=
  takes.of_forall₂ (List.forall₂_map_right_iff.mpr (List.forall₂_same.mpr fun operand _ => Eq.refl (f operand)))

/-- A tree of operators. `α` is what is known of the values at its leaves. -/
inductive Skeleton (α : Type) where
  | value (held : α)
  | column (path : FieldPath)
  | operation (operator : Operator) (operands : List (Skeleton α))

namespace Skeleton

variable {α β : Type}

section Fold

variable (value : α → β) (column : FieldPath → β) (operation : Operator → List β → β)

mutual

/-- Replaces every node by what the given functions make of it, from the leaves up. -/
def fold : Skeleton α → β
  | .value held => value held
  | .column path => column path
  | .operation operator operands => operation operator (foldAll operands)

def foldAll : List (Skeleton α) → List β
  | [] => []
  | operand :: rest => fold operand :: foldAll rest

end

theorem foldAll_eq_map (operands : List (Skeleton α)) :
    foldAll value column operation operands = operands.map (fold value column operation) := by
  induction operands with
  | nil => rfl
  | cons operand rest ih => simp [foldAll, ih]

end Fold

mutual

/-- What holds of the leaves, and of an operation whenever it holds of its operands, holds of every skeleton. -/
@[elab_as_elim, induction_eliminator]
theorem induct {motive : Skeleton α → Prop} (value : ∀ held, motive (.value held))
    (column : ∀ path, motive (.column path))
    (operation : ∀ operator operands, (∀ operand ∈ operands, motive operand) →
      motive (.operation operator operands)) :
    ∀ skeleton, motive skeleton
  | .value held => value held
  | .column path => column path
  | .operation operator operands => operation operator operands (inductAll value column operation operands)

theorem inductAll {motive : Skeleton α → Prop} (value : ∀ held, motive (.value held))
    (column : ∀ path, motive (.column path))
    (operation : ∀ operator operands, (∀ operand ∈ operands, motive operand) →
      motive (.operation operator operands)) :
    ∀ operands : List (Skeleton α), ∀ operand ∈ operands, motive operand
  | [] => by simp
  | first :: rest =>
      List.forall_mem_cons.mpr
        ⟨induct value column operation first, inductAll value column operation rest⟩

end

def values : Skeleton α → List α :=
  fold (fun held => [held]) (fun _ => []) fun _ operands => operands.flatten

def columns : Skeleton α → List FieldPath :=
  fold (fun _ => []) (fun path => [path]) fun _ operands => operands.flatten

def bare : Skeleton α → Skeleton Unit :=
  fold (fun _ => .value ()) .column .operation

@[simp] theorem values_value (held : α) : (value held).values = [held] := rfl

@[simp] theorem values_column (path : FieldPath) : (column path : Skeleton α).values = [] := rfl

@[simp] theorem values_operation (operator : Operator) (operands : List (Skeleton α)) :
    (operation operator operands).values = operands.flatMap values := by
  simp [values, fold, foldAll_eq_map, List.flatMap]

@[simp] theorem columns_value (held : α) : (value held).columns = [] := rfl

@[simp] theorem columns_column (path : FieldPath) : (column path : Skeleton α).columns = [path] := rfl

@[simp] theorem columns_operation (operator : Operator) (operands : List (Skeleton α)) :
    (operation operator operands).columns = operands.flatMap columns := by
  simp [columns, fold, foldAll_eq_map, List.flatMap]

@[simp] theorem bare_value (held : α) : (value held).bare = value () := rfl

@[simp] theorem bare_column (path : FieldPath) : (column path : Skeleton α).bare = column path := rfl

@[simp] theorem bare_operation (operator : Operator) (operands : List (Skeleton α)) :
    (operation operator operands).bare = operation operator (operands.map bare) := by
  simp [bare, fold, foldAll_eq_map]

end Skeleton

end FilterSql
