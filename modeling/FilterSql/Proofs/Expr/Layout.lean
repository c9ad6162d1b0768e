import FilterSql.Proofs.Expr.Tokens

/-!
# Operands among other tokens

What stands behind an operand neither runs into it nor adds to a path at its end. This is kept by every operator, so
that it holds however deep operands are nested.
-/

set_option autoImplicit false

namespace FilterSql

open Sql Sql.Token

inductive Sql.Token.Following : List Token → Prop where
  | done : Following []
  | space {rest : List Token} : Following (.space :: rest)
  | closing {rest : List Token} : Following rest → Following (.closing :: rest)

theorem Sql.Token.following_joined (operator : Operator) (layouts : List (List Token)) {rest : List Token}
    (following : Following rest) : Following (layouts.flatMap (.space :: .word operator :: .space :: ·) ++ rest) := by
  cases layouts with
  | nil => exact following
  | cons => exact .space

/-! ## Separation -/

/-- A sequence of tokens that can stand anywhere an operand can. -/
def Sql.Token.Placed (layout : List Token) : Prop :=
  ∀ ⦃rest : List Token⦄, Following rest → Separated rest →
    ∀ before : Token, before.endsByItself = true → Separated (before :: (layout ++ rest))

private theorem separated_sign {token : Token} (closed : token.endsByItself = true) (visible : token ≠ .space)
    {rest : List Token} (separated : Separated rest) : Separated (token :: rest) := by
  cases rest with
  | nil => exact .singleton token
  | cons next rest => exact .cons_cons (by simp [mayPrecede, closed, visible]) separated

private theorem separated_before {before next : Token} (closed : before.endsByItself = true)
    (visible : next ≠ .space) {rest : List Token} (separated : Separated (next :: rest)) :
    Separated (before :: next :: rest) :=
  .cons_cons (by simp [mayPrecede, closed, visible]) separated

private theorem separated_opening {before : Token} (closed : before.endsByItself = true) {rest : List Token}
    (separated : Separated (.opening :: rest)) : Separated (before :: .opening :: rest) :=
  separated_before closed (by simp) separated

private theorem separated_word (operator : Operator) {rest : List Token} (separated : Separated (.space :: rest)) :
    Separated (.space :: .word operator :: .space :: rest) :=
  separated_before rfl (by simp) (.cons_cons (by simp [mayPrecede]) separated)

theorem placed_placeholder : Placed [.placeholder] := by
  intro rest following separated before closed
  refine separated_before closed (by simp) ?_
  cases following with
  | done => exact .singleton _
  | space => exact .cons_cons rfl separated
  | closing => exact .cons_cons rfl separated

private theorem separated_points (names : List String) {rest : List Token} (separated : Separated rest) :
    Separated ((names.flatMap fun name => [.point, .quoted name]) ++ rest) := by
  induction names with
  | nil => exact separated
  | cons name names ih => exact separated_sign rfl (by simp) (separated_sign rfl (by simp) ih)

theorem placed_path (path : FieldPath) : Placed path.tokens := by
  intro rest following separated before closed
  unfold FieldPath.tokens FieldPath.tokensOf
  split
  next shape => exact absurd shape path.nonempty
  next only _ => exact separated_before closed (by simp) (separated_sign rfl (by simp) separated)
  next first names _ _ =>
      refine separated_before closed (by simp) (separated_sign rfl (by simp) ?_)
      exact separated_sign rfl (by simp) (separated_sign rfl (by simp) (separated_points names separated))

private theorem placed_joined (operator : Operator) {layouts : List (List Token)}
    (placed : ∀ layout ∈ layouts, Placed layout) {rest : List Token} (following : Following rest)
    (separated : Separated rest) :
    Separated (layouts.flatMap (.space :: .word operator :: .space :: ·) ++ rest) := by
  induction layouts with
  | nil => exact separated
  | cons layout layouts ih =>
      obtain ⟨first, others⟩ := List.forall_mem_cons.mp placed
      have inner := first (following_joined operator layouts following) (ih others) .space rfl
      simpa using separated_word operator inner

/-- An operator keeps its operands apart from each other, from itself and from what is around it. -/
theorem placed_layOut {operator : Operator} {layouts : List (List Token)} (takes : operator.Takes layouts)
    (placed : ∀ layout ∈ layouts, Placed layout) : Placed (operator.layOut layouts) := by
  intro rest following separated before closed
  have ends : Separated (.closing :: rest) := separated_sign rfl (by simp) separated
  cases takes with
  | @leading operand form =>
      have inner := placed operand (by simp) (.closing following) ends .space rfl
      have word : Separated (.word operator :: .space :: (operand ++ .closing :: rest)) :=
        .cons_cons (by simp [mayPrecede]) inner
      simpa [Operator.layOut, form] using separated_opening closed (separated_sign rfl (by simp) word)
  | @trailing operand form =>
      have word : Separated (.space :: .word operator :: .closing :: rest) :=
        separated_before rfl (by simp) (.cons_cons rfl ends)
      have inner := placed operand (by simp) .space word .opening rfl
      simpa [Operator.layOut, form] using separated_opening closed inner
  | @joining first second others form =>
      have joined := placed_joined operator (List.forall_mem_cons.mp placed).2 (.closing following) ends
      have inner := placed first (by simp) (following_joined operator _ (.closing following)) joined .opening rfl
      simpa [Operator.layOut, form] using separated_opening closed inner
  | @membership value array form =>
      have right := placed array (by simp) (.closing (.closing following)) (separated_sign rfl (by simp) ends)
        .opening rfl
      have any : Separated (.word .any :: .opening :: (array ++ .closing :: .closing :: rest)) :=
        .cons_cons (by simp [mayPrecede]) right
      have words := separated_word .equal (separated_before rfl (by simp) any)
      have inner := placed value (by simp) .space words .opening rfl
      simpa [Operator.layOut, form] using separated_opening closed inner
  | @range value lower upper form =>
      have last := placed upper (by simp) (.closing following) ends .space rfl
      have middle := placed lower (by simp) .space (separated_word .and last) .space rfl
      have inner := placed value (by simp) .space (separated_word .between middle) .opening rfl
      simpa [Operator.layOut, form] using separated_opening closed inner

/-! ## Paths -/

/-- A sequence of tokens with the paths that are read from it wherever an operand can stand. -/
def Sql.Token.Names (layout : List Token) (found : List (List String)) : Prop :=
  ∀ ⦃rest : List Token⦄, Following rest → paths (layout ++ rest) = found ++ paths rest

private theorem not_continues {rest : List Token} (following : Following rest) : continues rest = false := by
  cases following with
  | done => rfl
  | space => rfl
  | closing following =>
      cases following with
      | done => rfl
      | space => rfl
      | closing => rfl

private theorem paths_last (name : String) {rest : List Token} (following : Following rest) :
    paths (.quoted name :: rest) = [name] :: paths rest := by
  simp [paths, not_continues following]

private theorem paths_points (first : String) (names : List String) {rest : List Token}
    (following : Following rest) :
    paths (.quoted first :: ((names.flatMap fun name => [.point, .quoted name]) ++ rest)) =
      (first :: names) :: paths rest := by
  induction names generalizing first with
  | nil => exact paths_last first following
  | cons name names ih =>
      simp only [List.flatMap_cons, List.cons_append, List.nil_append]
      rw [paths_point, ih name, paths.extend]

theorem names_path (path : FieldPath) : Names path.tokens [path.segments] := by
  intro rest following
  unfold FieldPath.tokens
  match shape : path.segments with
  | [] => exact absurd shape path.nonempty
  | [only] => exact paths_last only following
  | first :: second :: names =>
      have others := paths_points second names following
      simp only [FieldPath.tokensOf, List.flatMap_cons, List.cons_append, List.nil_append]
      rw [paths, paths_closing_point, others, paths.extend]
      simp

private theorem names_joined (operator : Operator) {layouts : List (List Token)} {found : List (List (List String))}
    (each : List.Forall₂ Names layouts found) {rest : List Token} (following : Following rest) :
    paths (layouts.flatMap (.space :: .word operator :: .space :: ·) ++ rest) = found.flatten ++ paths rest := by
  induction each with
  | nil => rfl
  | @cons layout names layouts found head _ ih =>
      have inner := head (following_joined operator layouts following)
      simp [paths, inner, ih]

theorem names_layOut {operator : Operator} {layouts : List (List Token)} {found : List (List (List String))}
    (takes : operator.Takes layouts) (each : List.Forall₂ Names layouts found) :
    Names (operator.layOut layouts) found.flatten := by
  intro rest following
  cases takes with
  | leading form =>
      obtain _ | ⟨operand, _ | _⟩ := each
      simp [Operator.layOut, form, paths, operand (.closing following)]
  | trailing form =>
      obtain _ | ⟨operand, _ | _⟩ := each
      simp [Operator.layOut, form, paths, operand .space]
  | @joining _ second rest form =>
      obtain _ | ⟨first, others⟩ := each
      have joined := names_joined operator others (.closing following)
      have inner := first (following_joined operator (second :: rest) (.closing following))
      rw [joined] at inner
      simpa [Operator.layOut, form, paths] using inner
  | membership form =>
      obtain _ | ⟨value, _ | ⟨array, _ | _⟩⟩ := each
      simp [Operator.layOut, form, paths, value .space, array (.closing (.closing following))]
  | range form =>
      obtain _ | ⟨value, _ | ⟨lower, _ | ⟨upper, _ | _⟩⟩⟩ := each
      simp [Operator.layOut, form, paths, value .space, lower .space, upper (.closing following)]

namespace Skeleton

variable {α : Type}

theorem Admitted.placed {skeleton : Skeleton α} (admitted : skeleton.Admitted) : Placed skeleton.tokens := by
  induction admitted with
  | value => exact placed_placeholder
  | column => exact placed_path _
  | operation takes _ ih =>
      rw [tokens_operation]
      exact placed_layOut (takes.map tokens) (by simpa using ih)

/-- No two tokens of an expression run together, and there are no two spaces in a row. -/
theorem Admitted.separated {skeleton : Skeleton α} (admitted : skeleton.Admitted) : Separated skeleton.tokens := by
  have behind := admitted.placed .done .nil .opening rfl
  rw [List.append_nil] at behind
  exact behind.tail

theorem Admitted.names {skeleton : Skeleton α} (admitted : skeleton.Admitted) :
    Names skeleton.tokens (skeleton.columns.map (·.segments)) := by
  induction admitted with
  | value => exact fun _ _ => rfl
  | column => exact names_path _
  | @operation operator operands takes _ ih =>
      have each : List.Forall₂ Names (operands.map tokens)
          (operands.map fun operand => operand.columns.map (·.segments)) := by
        rw [List.forall₂_map_left_iff, List.forall₂_map_right_iff, List.forall₂_same]
        exact ih
      rw [tokens_operation, columns_operation, List.map_flatMap]
      exact names_layOut (takes.map tokens) each

theorem Admitted.paths_tokens {skeleton : Skeleton α} (admitted : skeleton.Admitted) :
    paths skeleton.tokens = skeleton.columns.map (·.segments) := by
  simpa [paths] using admitted.names .done

end Skeleton

end FilterSql
