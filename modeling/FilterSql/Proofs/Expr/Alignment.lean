import FilterSql.Ordering
import FilterSql.Proofs.Expr.Compile
import FilterSql.Proofs.Sql.Trace

/-!
# Placeholders and arguments

A host may put together a statement in any number of steps, some of which may fail. The placeholders in the text stay
those of the arguments: as many, in the same order, and each where it was written when its argument was bound. The last
is said with the help of the same steps on a traced builder.
-/

set_option autoImplicit false

namespace FilterSql

open Schema (RecordType)
open Sql

/-! ## Steps -/

/-- SQL text of the host, without quoted names and placeholders. -/
structure HostText where
  text : String
  plain : ∀ c ∈ text.toList, c ≠ '"' ∧ isSign c = false

inductive Step (ρ : Type) where
  | literal (host : HostText)
  | argument (value : Value)
  | path (path : FieldPath)
  | expression (expr : Expr ρ)
  | subexpression (expr : Expr ρ)
  | ordering (orders : Orders ρ)

variable {ρ π : Type} [RecordType ρ] [Page π]

namespace Step

/-- Takes the step. Gives the ordinal of an argument. -/
def write : Step ρ → Writing π CompileError (Option Nat)
  | literal host => do
    Writing.literal host.text
    pure none
  | argument value => do
    let ordinal ← Writing.argument value
    pure (some ordinal)
  | path column => do
    Writing.literal column.text
    pure none
  | expression expr => do
    expr.write
    pure none
  | subexpression expr => do
    Writing.subexpression expr.write
    pure none
  | ordering orders => do
    Writing.subexpression (modify orders.appendTo)
    pure none

/-- The page after the step, whether it fails or not. -/
def perform (page : π) (step : Step ρ) : π :=
  match step.write page with
  | .ok _ written => written
  | .error _ written => written

def performAll (page : π) (steps : List (Step ρ)) : π :=
  steps.foldl perform page

/-- What the step adds to a page. A step that fails adds nothing. -/
def fragment : Step ρ → Fragment
  | literal host => [.literal host.text]
  | argument value => [.argument value]
  | path column => [.literal column.text]
  | expression expr => expr.fragment.toOption.getD []
  | subexpression expr => expr.fragment.toOption.getD []
  | ordering orders => [.literal orders.text]

end Step

/-! ## What a step adds -/

omit [Page π] in
private theorem write_only {write : Writing π CompileError Unit} (page : π) :
    (do write; pure none : Writing π CompileError (Option Nat)) page =
      match write page with
      | .ok _ written => .ok none written
      | .error error written => .error error written := by
  cases result : write page with
  | ok value written => exact run_bind_ok result
  | error error written => exact run_bind_error result

omit [Page π] in
private theorem error_of_write_only {write : Writing π CompileError Unit} {page written : π} {error : CompileError}
    (failed : (do write; pure none : Writing π CompileError (Option Nat)) page = .error error written) :
    write page = .error error written := by
  rw [write_only] at failed
  cases result : write page with
  | ok value after => simp [result] at failed
  | error reason after => simpa [result] using failed

theorem Step.perform_eq [LawfulPage π] (step : Step ρ) (page : π) :
    step.perform page = Page.appendFragment page step.fragment := by
  cases step with
  | literal host => rfl
  | argument value => rfl
  | path column => rfl
  | expression expr =>
      rw [perform, write, write_only, expr.write_eq, fragment]
      cases expr.fragment <;> rfl
  | subexpression expr =>
      rw [perform, write, write_only, Writing.subexpression, expr.write_eq, fragment]
      cases expr.fragment with
      | error error => rfl
      | ok fragment => exact LawfulPage.takeOver_scratch page fragment
  | ordering orders => exact LawfulPage.takeOver_scratch page [.literal orders.text]

theorem Step.write_error {step : Step ρ} {page written : π} {error : CompileError}
    (failed : step.write page = .error error written) : written = page := by
  cases step with
  | literal host => cases failed
  | argument value => cases failed
  | path column => cases failed
  | expression expr => exact expr.write_error (error_of_write_only failed)
  | subexpression expr => exact Writing.subexpression_error (error_of_write_only failed)
  | ordering orders => cases failed

theorem Step.performAll_eq [LawfulPage π] (page : π) (steps : List (Step ρ)) :
    performAll page steps = Page.appendFragment page (steps.flatMap fragment) := by
  unfold performAll
  induction steps generalizing page with
  | nil => rfl
  | cons step steps ih =>
      rw [List.foldl_cons, ih, step.perform_eq, List.flatMap_cons, Page.appendFragment_append]

/-! ## What is written counts for no placeholder -/

private theorem mem_arrange {operator : Operator} {fragments : List Fragment} {text : String}
    (member : .literal text ∈ operator.arrange fragments) :
    (∃ fragment ∈ fragments, .literal text ∈ fragment) ∨ text ∈ ["(", ")", "any("] ∨
      ∃ operator : Operator, text = operator.name := by
  have equal : "=" = Operator.equal.name := rfl
  have between : "between" = Operator.between.name := rfl
  have and : "and" = Operator.and.name := rfl
  unfold Operator.arrange at member
  split at member <;> simp only [List.mem_append, List.mem_cons, List.mem_flatMap, List.mem_flatten, List.not_mem_nil,
    Piece.literal.injEq] at member ⊢ <;> grind

private theorem inert_sign {text : String} (sign : text ∈ ["(", ")", "any("]) : Inert text := by
  simp only [List.mem_cons, List.not_mem_nil, or_false] at sign
  rcases sign with rfl | rfl | rfl <;> exact inert_of_plain (by simp [isSign])

private theorem inert_name (operator : Operator) : Inert operator.name :=
  inert_of_plain (by cases operator <;> simp [Operator.name, isSign])

theorem Skeleton.inert_fragment (skeleton : Skeleton Value) : skeleton.fragment.Inert := by
  induction skeleton with
  | value held => simp [Fragment.Inert]
  | column path =>
      intro text member
      obtain rfl : text = path.text := by simpa using member
      exact inert_path path
  | operation operator operands ih =>
      intro text member
      rw [fragment_operation] at member
      rcases mem_arrange member with ⟨fragment, known, inside⟩ | sign | ⟨other, rfl⟩
      · obtain ⟨operand, present, rfl⟩ := List.mem_map.mp known
        exact ih operand present text inside
      · exact inert_sign sign
      · exact inert_name other

theorem Expr.inert_fragment {expr : Expr ρ} {fragment : Fragment} (accepted : expr.fragment = .ok fragment) :
    fragment.Inert := by
  cases fragment_ok accepted with
  | truth =>
      intro text member
      obtain rfl : text = "true" := by simpa using member
      exact inert_of_plain (by simp [isSign])
  | @node _ found => exact found.inert_fragment

omit [RecordType ρ] in
private theorem inert_orders (orders : Orders ρ) : Inert orders.text := by
  have each : ∀ text ∈ orders.items.map Order.text, Inert text := by
    intro text member
    obtain ⟨order, _, rfl⟩ := List.mem_map.mp member
    have blank : Inert " " := inert_of_plain (by simp [isSign])
    have direction : Inert (if order.descending then "desc" else "asc") := by
      split <;> exact inert_of_plain (by simp [isSign])
    exact ((inert_path order.path).append blank).append direction
  unfold Orders.text
  split
  · exact inert_of_plain (by simp)
  · exact Inert.append (inert_of_plain (by simp [isSign]))
      (inert_intercalate (inert_of_plain (by simp [isSign])) each)

theorem Step.inert_fragment (step : Step ρ) : step.fragment.Inert := by
  have accepted : ∀ expr : Expr ρ, Fragment.Inert (expr.fragment.toOption.getD []) := by
    intro expr
    cases known : expr.fragment with
    | error error => simp [Except.toOption, Fragment.Inert]
    | ok fragment => exact Expr.inert_fragment known
  cases step with
  | literal host =>
      intro text member
      obtain rfl : text = host.text := by simpa [fragment] using member
      exact inert_of_plain host.plain
  | argument value => simp [fragment, Fragment.Inert]
  | path column =>
      intro text member
      obtain rfl : text = column.text := by simpa [fragment] using member
      exact inert_path column
  | expression expr => exact accepted expr
  | subexpression expr => exact accepted expr
  | ordering orders =>
      intro text member
      obtain rfl : text = orders.text := by simpa [fragment] using member
      exact inert_orders orders

/-! ## Placeholders and arguments stay aligned -/

/-- The placeholders in a builder's text are those that were written for its arguments. -/
structure Aligned (backend : Backend) (builder : Builder) (bindings : List Binding) : Prop where
  /-- Each argument was bound once, in this order. -/
  arguments : bindings.map (·.value) = builder.arguments.toList
  /-- The placeholders that stand outside of quoted names are those written for the arguments, in their places. -/
  placeholders : placeholders builder.text = bindings.map fun binding => (binding.place, binding.placeholder)
  /-- There is one for each argument, and they are numbered from left to right. -/
  numbered : (Sql.placeholders builder.text).map (·.2) =
    (List.range builder.arguments.size).map fun index => backend.placeholder (index + 1)

theorem aligned_fragment {fragment : Fragment} (inert : fragment.Inert) (backend : Backend) :
    Aligned backend (Page.appendFragment (Builder.empty backend) fragment)
      (Page.appendFragment (Traced.empty backend) fragment).bindings := by
  have bindings : (Page.appendFragment (Traced.empty backend) fragment).bindings = fragment.bindings backend 0 := by
    rw [Traced.appendFragment_eq]
    simp [Traced.empty, Builder.empty, Builder.lastOrdinal]
  have written := Builder.appendFragment_eq (.empty backend) fragment
  have text : (Page.appendFragment (Builder.empty backend) fragment).text = fragment.text backend 0 := by
    rw [written]
    simp [Builder.empty, Builder.lastOrdinal]
  have arguments :
      (Page.appendFragment (Builder.empty backend) fragment).arguments = fragment.arguments.toArray := by
    rw [written]
    simp [Builder.empty]
  have scanned := Fragment.placeholders_text inert backend 0
  constructor
  · rw [bindings, arguments]
    exact fragment.bindings_value backend 0
  · rw [bindings, text, scanned]
  · have numbered := fragment.bindings_placeholder backend 0
    rw [text, scanned, arguments, List.map_map]
    simpa [Function.comp_def] using numbered

/-- What one more step does to a builder. -/
structure Orderly (ρ : Type) [RecordType ρ] (builder : Builder) : Prop where
  /-- An argument that is bound gets the number of arguments as its ordinal. -/
  argument : ∀ value, ∃ after, (Step.argument value : Step ρ).write builder = .ok (some after.arguments.size) after ∧
    after.arguments = builder.arguments.push value
  /-- A step that fails adds neither text nor arguments. -/
  failure : ∀ (step : Step ρ) (error : CompileError) (after : Builder),
    step.write builder = .error error after → after = builder
  /-- No step changes what is written already. -/
  growth : ∀ step : Step ρ, ∃ text arguments, (step.perform builder).text = builder.text ++ text ∧
    (step.perform builder).arguments = builder.arguments ++ arguments

theorem orderly_of_offset {builder : Builder} (offset : builder.offset = 0) : Orderly ρ builder := by
  refine ⟨fun value => ⟨builder.appendArgument value, ?_, rfl⟩, fun step error after failed => step.write_error failed,
    fun step => ?_⟩
  · have ordinal : (builder.appendArgument value).lastOrdinal = (builder.appendArgument value).arguments.size := by
      change builder.offset + _ = _
      rw [offset, Nat.zero_add]
    rw [← ordinal]
    rfl
  · rw [step.perform_eq, Builder.appendFragment_eq]
    unfold join
    split
    · exact ⟨_, _, by rw [String.append_assoc], rfl⟩
    · exact ⟨_, _, rfl, rfl⟩

/-- After any steps the placeholders are aligned with the arguments, and whatever step is next keeps them in order. -/
theorem performAll_aligned (backend : Backend) (steps : List (Step ρ)) :
    (Step.performAll (Traced.empty backend) steps).builder = Step.performAll (Builder.empty backend) steps ∧
      Aligned backend (Step.performAll (Builder.empty backend) steps)
        (Step.performAll (Traced.empty backend) steps).bindings ∧
      Orderly ρ (Step.performAll (Builder.empty backend) steps) := by
  have inert : Fragment.Inert (steps.flatMap Step.fragment) := by
    intro text member
    obtain ⟨step, _, inside⟩ := List.mem_flatMap.mp member
    exact step.inert_fragment text inside
  have written := Step.performAll_eq (Builder.empty backend) steps
  have traced := Step.performAll_eq (Traced.empty backend) steps
  refine ⟨?_, ?_, orderly_of_offset ?_⟩
  · rw [traced, written, Traced.builder_appendFragment]
    rfl
  · rw [traced, written]
    exact aligned_fragment inert backend
  · rw [written, Builder.appendFragment_eq]
    rfl

end FilterSql
