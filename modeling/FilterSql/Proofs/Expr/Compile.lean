import FilterSql.Proofs.Expr.Layout

/-!
# What a compilation gives

An expression adds one fragment, whatever page it is written to. Compiled alone it is the text of that fragment with
its arguments, and the text is spelt from the tokens of a skeleton.
-/

set_option autoImplicit false

namespace FilterSql.Expr

open Schema (RecordType)
open Sql (Builder Fragment LawfulPage Page Writing)
open Sql.Writing (Adds adds_literal)
open Sql.Token (spell)

variable {ρ π : Type} [RecordType ρ] [Page π]

/-- What an expression adds to a page, or why it is rejected. -/
def fragment (expr : Expr ρ) : Except CompileError Fragment := do
  match ← read expr.source expr.isBoolean expr.limits with
  | none => .ok [.literal "true"]
  | some node => do
    let found ← skeleton expr.schema expr.limits.depthLimit 0 node
    .ok found.fragment

/-- What an expression adds is the word for truth, or the fragment of a skeleton. -/
inductive Addition (expr : Expr ρ) : Fragment → Prop where
  | truth : read expr.source expr.isBoolean expr.limits = .ok none → Addition expr [.literal "true"]
  | node {node : Json} {found : Skeleton Sql.Value} :
      read expr.source expr.isBoolean expr.limits = .ok (some node) →
      skeleton expr.schema expr.limits.depthLimit 0 node = .ok found → Addition expr found.fragment

theorem fragment_ok {expr : Expr ρ} {fragment : Fragment} (accepted : expr.fragment = .ok fragment) :
    Addition expr fragment := by
  unfold Expr.fragment at accepted
  cases taken : read expr.source expr.isBoolean expr.limits with
  | error error => simp [taken, bind, Except.bind] at accepted
  | ok node? =>
      cases node? with
      | none =>
          simp only [taken, bind, Except.bind, Except.ok.injEq] at accepted
          subst accepted
          exact .truth taken
      | some node =>
          cases known : skeleton expr.schema expr.limits.depthLimit 0 node with
          | error error => simp [taken, known, bind, Except.bind] at accepted
          | ok found =>
              simp only [taken, known, bind, Except.bind, Except.ok.injEq] at accepted
              subst accepted
              exact .node taken known

theorem write_adds [LawfulPage π] (expr : Expr ρ) : Adds (expr.write : Writing π CompileError Unit) expr.fragment := by
  refine Adds.ofExcept fun node? => ?_
  cases node? with
  | none => exact adds_literal "true"
  | some node => exact (decode_elaborated π expr.schema expr.limits.depthLimit 0 node).subexpression

theorem write_error {expr : Expr ρ} {page written : π} {error : CompileError}
    (rejected : expr.write page = .error error written) : written = page := by
  unfold write at rejected
  cases known : read expr.source expr.isBoolean expr.limits with
  | error reason =>
      rw [known] at rejected
      cases rejected
      rfl
  | ok node? =>
      rw [known] at rejected
      cases node? with
      | none => cases rejected
      | some node => exact Sql.Writing.subexpression_error rejected

theorem write_eq [LawfulPage π] (expr : Expr ρ) (page : π) :
    expr.write page = match expr.fragment with
      | .ok fragment => .ok () (Page.appendFragment page fragment)
      | .error error => .error error page := by
  have adds : Adds (expr.write : Writing π CompileError Unit) expr.fragment := expr.write_adds
  cases known : expr.fragment with
  | error error =>
      rw [known] at adds
      obtain ⟨written, rejected⟩ := adds page
      rw [rejected, expr.write_error rejected]
  | ok fragment =>
      rw [known] at adds
      exact adds page

theorem appendTo_eq [LawfulPage π] (expr : Expr ρ) (page : π) :
    expr.appendTo page = expr.fragment.map (Page.appendFragment page) := by
  unfold appendTo Writing.written
  rw [write_eq]
  cases expr.fragment <;> rfl

theorem compile_eq (expr : Expr ρ) (backend : Backend) :
    expr.compile backend = expr.fragment.map fun fragment => ⟨fragment.text backend 0, fragment.arguments⟩ := by
  unfold compile
  rw [appendTo_eq]
  cases expr.fragment with
  | error error => rfl
  | ok fragment => simp [Except.map, bind, Except.bind, Builder.appendFragment_eq, Builder.empty, Builder.lastOrdinal]

theorem compile_ok_iff {expr : Expr ρ} {backend : Backend} {compiled : Compiled} :
    expr.compile backend = .ok compiled ↔
      ∃ fragment, expr.fragment = .ok fragment ∧ compiled = ⟨fragment.text backend 0, fragment.arguments⟩ := by
  rw [compile_eq]
  cases expr.fragment <;> simp [Except.map, eq_comm]

theorem compile_error_iff {expr : Expr ρ} {backend : Backend} {error : CompileError} :
    expr.compile backend = .error error ↔ expr.fragment = .error error := by
  rw [compile_eq]
  cases expr.fragment <;> simp [Except.map]

theorem fragment_of_read {expr : Expr ρ} {node : Json}
    (taken : read expr.source expr.isBoolean expr.limits = .ok (some node)) :
    expr.fragment = (skeleton expr.schema expr.limits.depthLimit 0 node).map Skeleton.fragment := by
  unfold Expr.fragment
  rw [taken]
  cases known : skeleton expr.schema expr.limits.depthLimit 0 node <;> simp [known, bind, Except.bind, Except.map]

theorem fragment_of_read_error {expr : Expr ρ} {error : CompileError}
    (rejected : read expr.source expr.isBoolean expr.limits = .error error) : expr.fragment = .error error := by
  unfold Expr.fragment
  rw [rejected]
  rfl

/-- The same expression with another value to be compiled. -/
def withValue (expr : Expr ρ) (node : Json) : Expr ρ :=
  { expr with source := some (.value node) }

theorem fragment_withValue (expr : Expr ρ) (node : Json) :
    (expr.withValue node).fragment =
      (skeleton expr.schema expr.limits.depthLimit 0 node).map Skeleton.fragment := by
  have taken : read (expr.withValue node).source (expr.withValue node).isBoolean (expr.withValue node).limits =
      .ok (some node) := rfl
  exact fragment_of_read taken

/-- A value is compiled to the text and the values of its skeleton, or rejected as its skeleton is. -/
theorem compile_withValue (expr : Expr ρ) (node : Json) (backend : Backend) :
    (expr.withValue node).compile backend =
      (skeleton expr.schema expr.limits.depthLimit 0 node).map fun found =>
        ⟨spell backend 0 found.tokens, found.values⟩ := by
  rw [compile_eq, fragment_withValue]
  cases known : skeleton expr.schema expr.limits.depthLimit 0 node with
  | error error => rfl
  | ok found =>
      have spelled : Spelled backend found.fragment found.tokens := (admitted_of_skeleton known).spelled
      simp only [Except.map, spelled.text, found.arguments_fragment]

theorem compile_of_text {expr : Expr ρ} {backend : Backend} {text : String}
    (found : (expr.compile backend).toOption.map (·.text) = some text) :
    ∃ compiled, expr.compile backend = .ok compiled ∧ compiled.text = text := by
  cases result : expr.compile backend with
  | error error => simp [result, Except.toOption] at found
  | ok compiled => exact ⟨compiled, rfl, by simpa [result, Except.toOption] using found⟩

/-- What is compiled is the word for truth, or the text and the values of a skeleton. -/
inductive Outcome (expr : Expr ρ) (backend : Backend) : Compiled → Prop where
  | truth : read expr.source expr.isBoolean expr.limits = .ok none → Outcome expr backend ⟨"true", []⟩
  | node {node : Json} {found : Skeleton Sql.Value} :
      read expr.source expr.isBoolean expr.limits = .ok (some node) →
      skeleton expr.schema expr.limits.depthLimit 0 node = .ok found →
      Outcome expr backend ⟨spell backend 0 found.tokens, found.values⟩

theorem compile_ok {expr : Expr ρ} {backend : Backend} {compiled : Compiled}
    (accepted : expr.compile backend = .ok compiled) : Outcome expr backend compiled := by
  obtain ⟨fragment, added, rfl⟩ := compile_ok_iff.mp accepted
  cases fragment_ok added with
  | truth taken => simpa [Fragment.text, Fragment.arguments] using (Outcome.truth taken : Outcome expr backend _)
  | @node _ found taken known =>
      have spelled : Spelled backend found.fragment found.tokens := (admitted_of_skeleton known).spelled
      rw [spelled.text, found.arguments_fragment]
      exact .node taken known

end FilterSql.Expr
