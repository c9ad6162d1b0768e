import FilterSql.Proofs.Expr.Compile
import FilterSql.Schema.Loaded

/-!
# Templates

What an accepted expression adds to a statement is cut once and for all: chunks of text with an argument between every
two of them. The backend chooses the placeholders, and the place in the statement their numbers and the one space that
may stand before. A rejected expression adds nothing anywhere.
-/

set_option autoImplicit false

namespace FilterSql

open Schema (RecordType)
open Sql (Builder Fragment Page Token Value Writing needsSpace)
open Sql.Token (holes spell)

/-- A text with arguments in it, each with the chunk of text behind it. -/
structure Template where
  lead : String
  slots : List (Value × String)

namespace Template

def arguments (template : Template) : List Value :=
  template.slots.map (·.1)

def slotsText (backend : Backend) (bound : Nat) : List (Value × String) → String
  | [] => ""
  | (_, chunk) :: rest => backend.placeholder (bound + 1) ++ chunk ++ slotsText backend (bound + 1) rest

/-- The text behind `bound` arguments. -/
def text (template : Template) (backend : Backend) (bound : Nat) : String :=
  template.lead ++ slotsText backend bound template.slots

/-- The builder with the template at its end, after a space if one is needed there. -/
def appendTo (template : Template) (builder : Builder) : Builder :=
  let added := template.text builder.backend builder.lastOrdinal
  { builder with
    text := builder.text ++ (if needsSpace builder.text added then " " else "") ++ added
    arguments := builder.arguments ++ template.arguments.toArray }

/-- Cuts tokens at the placeholders. No other token hangs on the backend or on an ordinal. -/
def ofTokens : List Token → List Value → Template
  | [], _ => ⟨"", []⟩
  | .placeholder :: rest, value :: values =>
    let template := ofTokens rest values
    ⟨"", (value, template.lead) :: template.slots⟩
  | token :: rest, values =>
    let template := ofTokens rest values
    ⟨token.spelling .postgres 0 ++ template.lead, template.slots⟩

end Template

theorem Sql.Token.spelling_eq {token : Token} (fixed : token ≠ .placeholder) (backend other : Backend)
    (ordinal number : Nat) : token.spelling backend ordinal = token.spelling other number := by
  cases token with
  | placeholder => exact absurd rfl fixed
  | opening | closing | point | space | word | truth | quoted => rfl

namespace Template

theorem ofTokens_fixed {token : Token} (fixed : token ≠ .placeholder) (rest : List Token) (values : List Value) :
    ofTokens (token :: rest) values =
      ⟨token.spelling .postgres 0 ++ (ofTokens rest values).lead, (ofTokens rest values).slots⟩ := by
  cases token with
  | placeholder => exact absurd rfl fixed
  | opening | closing | point | space | word | truth | quoted => rfl

private theorem filled_placeholder {rest : List Token} {values : List Value}
    (filled : values.length = holes (.placeholder :: rest)) :
    ∃ value others, values = value :: others ∧ others.length = holes rest := by
  cases values with
  | nil =>
      simp only [Token.holes_cons, ↓reduceIte, List.length_nil] at filled
      omega
  | cons value others =>
      simp only [Token.holes_cons, ↓reduceIte, List.length_cons] at filled
      exact ⟨value, others, rfl, by omega⟩

theorem arguments_ofTokens {tokens : List Token} {values : List Value} (filled : values.length = holes tokens) :
    (ofTokens tokens values).arguments = values := by
  induction tokens generalizing values with
  | nil =>
      obtain rfl : values = [] := List.length_eq_zero_iff.mp filled
      rfl
  | cons token rest ih =>
      by_cases hole : token = .placeholder
      · subst hole
        obtain ⟨value, others, rfl, counted⟩ := filled_placeholder filled
        exact congrArg (value :: ·) (ih counted)
      · rw [ofTokens_fixed hole]
        exact ih (by simpa [hole] using filled)

theorem text_ofTokens {tokens : List Token} {values : List Value} (filled : values.length = holes tokens)
    (backend : Backend) (bound : Nat) : (ofTokens tokens values).text backend bound = spell backend bound tokens := by
  -- Each placeholder takes a value and an ordinal, so what is behind it starts from others.
  induction tokens generalizing values bound with
  | nil => rfl
  | cons token rest ih =>
      by_cases hole : token = .placeholder
      · subst hole
        obtain ⟨value, others, rfl, counted⟩ := filled_placeholder filled
        rw [spell, Token.ordinalAfter, ← ih counted]
        simp [ofTokens, text, slotsText, Token.spelling, String.append_assoc]
      · have others : values.length = holes rest := by simpa [hole] using filled
        have counted : token.ordinalAfter bound = bound := by simp [Token.ordinalAfter_eq, hole]
        rw [ofTokens_fixed hole, spell, counted, ← ih others, Token.spelling_eq hole backend .postgres (bound + 1) 0]
        simp [text, String.append_assoc]

end Template

namespace Expr

variable {ρ : Type} [RecordType ρ]

/-- What an accepted expression adds has the same cuts for every backend and every place. -/
theorem exists_template {expr : Expr ρ} {fragment : Fragment} (accepted : expr.fragment = .ok fragment) :
    ∃ template : Template, fragment.arguments = template.arguments ∧
      ∀ backend bound, fragment.text backend bound = template.text backend bound := by
  cases fragment_ok accepted with
  | truth => exact ⟨⟨"true", []⟩, rfl, fun _ _ => by simp [Fragment.text, Template.text, Template.slotsText]⟩
  | @node _ found taken known =>
      have admitted := admitted_of_skeleton known
      have filled : found.values.length = holes found.tokens := admitted.holes_tokens.symm
      refine ⟨.ofTokens found.tokens found.values, ?_, fun backend bound => ?_⟩
      · rw [found.arguments_fragment, Template.arguments_ofTokens filled]
      · have spelled : Spelled backend found.fragment found.tokens := admitted.spelled
        rw [spelled.text, Template.text_ofTokens filled]

/-- The expression is the template wherever it is written, on a page of its own or not. -/
structure Splices (expr : Expr ρ) (template : Template) : Prop where
  compiled : ∀ backend, expr.compile backend = .ok ⟨template.text backend 0, template.arguments⟩
  direct : ∀ builder : Builder, expr.write builder = .ok () (template.appendTo builder)
  apart : ∀ builder : Builder, Writing.subexpression expr.write builder = .ok () (template.appendTo builder)
  taken : ∀ builder : Builder, builder.appendSubexpression expr.appendTo = .ok (template.appendTo builder)

/-- The expression is rejected wherever it is written, and the builder stays as it is. -/
structure Rejected (expr : Expr ρ) (error : CompileError) : Prop where
  compiled : ∀ backend, expr.compile backend = .error error
  direct : ∀ builder : Builder, expr.write builder = .error error builder
  apart : ∀ builder : Builder, Writing.subexpression expr.write builder = .error error builder
  taken : ∀ builder : Builder, builder.appendSubexpression expr.appendTo = .error error

private theorem appendFragment_template {fragment : Fragment} {template : Template}
    (arguments : fragment.arguments = template.arguments)
    (text : ∀ backend bound, fragment.text backend bound = template.text backend bound) (builder : Builder) :
    Page.appendFragment builder fragment = template.appendTo builder := by
  rw [Builder.appendFragment_eq, arguments, text]
  unfold Template.appendTo Sql.join
  split <;> simp [*]

theorem splices_of_fragment {expr : Expr ρ} {fragment : Fragment} (accepted : expr.fragment = .ok fragment) :
    ∃ template, expr.Splices template := by
  obtain ⟨template, arguments, text⟩ := exists_template accepted
  have written : ∀ builder : Builder, expr.write builder = .ok () (template.appendTo builder) := by
    intro builder
    rw [expr.write_eq, accepted, ← appendFragment_template arguments text]
  have apart : ∀ builder : Builder, Writing.subexpression expr.write builder = .ok () (template.appendTo builder) := by
    intro builder
    have takenOver := Sql.LawfulPage.takeOver_scratch builder fragment
    rw [appendFragment_template arguments text, appendFragment_template arguments text] at takenOver
    simp [Writing.subexpression, written, takenOver]
  refine ⟨template, fun backend => ?_, written, apart, fun builder => ?_⟩
  · rw [compile_eq, accepted, Except.map, text, arguments]
  · exact (Writing.written_subexpression expr.write builder).symm.trans (by rw [Writing.written, apart])

theorem rejected_of_fragment {expr : Expr ρ} {error : CompileError} (rejected : expr.fragment = .error error) :
    expr.Rejected error := by
  have failed : ∀ builder : Builder, expr.write builder = .error error builder := by
    intro builder
    rw [expr.write_eq, rejected]
  have apart : ∀ builder : Builder, Writing.subexpression expr.write builder = .error error builder := by
    intro builder
    simp [Writing.subexpression, failed]
  refine ⟨fun backend => ?_, failed, apart, fun builder => ?_⟩
  · rw [compile_eq, rejected, Except.map]
  · exact (Writing.written_subexpression expr.write builder).symm.trans (by rw [Writing.written, apart])

/-- An expression that compiles for one backend is one template for all of them and in every place. An expression that
does not is rejected with the same error everywhere. -/
theorem compile_uniform (expr : Expr ρ) :
    (∀ backend compiled, expr.compile backend = .ok compiled → ∃ template, expr.Splices template) ∧
      ∀ backend error, expr.compile backend = .error error → expr.Rejected error := by
  cases known : expr.fragment with
  | ok fragment =>
      refine ⟨fun _ _ _ => splices_of_fragment known, fun backend error failed => ?_⟩
      simp [compile_eq, known, Except.map] at failed
  | error reason =>
      refine ⟨fun backend compiled accepted => ?_, fun backend error failed => ?_⟩
      · simp [compile_eq, known, Except.map] at accepted
      · obtain rfl : reason = error := by simpa [compile_eq, known, Except.map] using failed
        exact rejected_of_fragment known

def literalsAlike : Expr Schema where
  source := some (.value (.array [.string "=", .number (.integer 1), .null]))

def literalAlone : Expr Schema where
  source := some (.value (.array [.string "=", .number (.integer 1)]))

theorem compile_uniform_literals :
    (∃ template, literalsAlike.Splices template) ∧ literalAlone.Rejected (.arityMismatch .equal 1) := by
  have accepted : (literalsAlike.compile .sqlite).toOption.map (·.text) = some "(?1 = ?2)" := by decide +kernel
  obtain ⟨compiled, result, _⟩ := compile_of_text accepted
  exact ⟨(compile_uniform literalsAlike).1 .sqlite compiled result, (compile_uniform literalAlone).2 .sqlite _ rfl⟩

end Expr

end FilterSql
