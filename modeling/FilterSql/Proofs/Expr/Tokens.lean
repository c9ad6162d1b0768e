import FilterSql.Proofs.Expr.Elaboration
import FilterSql.Proofs.Sql.FieldPath
import FilterSql.Proofs.Sql.Token

/-!
# Tokens of expressions

The text that a skeleton adds to a builder, token by token. Every space that the builder decides on while it is written
to stands here where the form of an operator puts it.
-/

set_option autoImplicit false

namespace FilterSql

open Sql Sql.Token

namespace Sql.FieldPath

/-- The quoted names with points between them, the first of several in parentheses. -/
def tokensOf : List String → List Token
  | [] => []
  | [only] => [.quoted only]
  | first :: rest => .opening :: .quoted first :: .closing :: rest.flatMap fun name => [.point, .quoted name]

def tokens (path : FieldPath) : List Token :=
  tokensOf path.segments

end Sql.FieldPath

/-- The tokens of an operator around and between the tokens of its operands. -/
def Operator.layOut (operator : Operator) (operands : List (List Token)) : List Token :=
  match operator.form, operands with
  | .leading, [operand] => [.opening, .word operator, .space] ++ operand ++ [.closing]
  | .trailing, [operand] => [.opening] ++ operand ++ [.space, .word operator, .closing]
  | .joining, first :: rest =>
    [.opening] ++ first ++ rest.flatMap (fun operand => .space :: .word operator :: .space :: operand) ++ [.closing]
  | .membership, [value, array] =>
    [.opening] ++ value ++ [.space, .word .equal, .space, .word .any, .opening] ++ array ++ [.closing, .closing]
  | .range, [value, lower, upper] =>
    [.opening] ++ value ++ [.space, .word .between, .space] ++ lower ++ [.space, .word .and, .space] ++ upper ++
      [.closing]
  | _, operands => operands.flatten

namespace Skeleton

variable {α : Type}

def tokens : Skeleton α → List Token :=
  fold (fun _ => [.placeholder]) FieldPath.tokens Operator.layOut

@[simp] theorem tokens_value (held : α) : (value held).tokens = [.placeholder] := rfl

@[simp] theorem tokens_column (path : FieldPath) : (column path : Skeleton α).tokens = path.tokens := rfl

@[simp] theorem tokens_operation (operator : Operator) (operands : List (Skeleton α)) :
    (operation operator operands).tokens = operator.layOut (operands.map tokens) := by
  simp [tokens, fold, foldAll_eq_map]

/-- The values do not show in the tokens. -/
theorem tokens_bare (skeleton : Skeleton α) : skeleton.bare.tokens = skeleton.tokens := by
  induction skeleton with
  | value held => rfl
  | column path => rfl
  | operation operator operands ih =>
      have each : (operands.map bare).map tokens = operands.map tokens := by
        simpa using ih
      rw [bare_operation, tokens_operation, tokens_operation, each]

end Skeleton

/-! ## The text of a fragment -/

/-- A fragment that is written as the tokens are spelt, however many arguments stand before it. -/
structure Spelled (backend : Backend) (fragment : Fragment) (tokens : List Token) : Prop where
  text : ∀ bound, fragment.text backend bound = spell backend bound tokens
  detached : ∀ bound, Detached (spell backend bound tokens)
  holes : fragment.arguments.length = holes tokens

section Layout

variable {backend : Backend} {operator : Operator}

private theorem join_parenthesis (text : String) : join "(" text = "(" ++ text :=
  join_opening text (by simp [String.back?_eq])

private theorem join_parenthesis_right (text : String) : join text ")" = text ++ ")" :=
  join_closing text (by simp [String.front?_eq])

/-- The operands of a joining operator, behind a text that keeps apart from them. -/
private theorem join_joined (operator : Operator) {fragments : List Fragment} {layouts : List (List Token)}
    (each : List.Forall₂ (Spelled backend) fragments layouts) {before : String} (ends : EndsApart before)
    (bound : Nat) :
    join before (Fragment.text backend bound (fragments.flatMap (.literal operator.name :: ·))) =
      before ++ spell backend bound (layouts.flatMap (.space :: .word operator :: .space :: ·)) := by
  -- The text before grows by an operand with its operator, and ends in the operand, which keeps apart again.
  induction each generalizing before bound with
  | nil => simp [Fragment.text]
  | @cons fragment layout fragments layouts head tail ih =>
      have rest := ih (head.detached bound).ends (bound + holes layout)
      simp only [List.flatMap_cons, List.cons_append, Fragment.text, Fragment.text_append, head.text, head.holes]
      rw [rest, join_word ends (detached_name operator) ((head.detached bound).starts.append _)]
      simp [spell, spell_append, spelling, ordinalAfter]

private theorem text_leading (form : operator.form = .leading) {fragment : Fragment} {layout : List Token}
    (operand : Spelled backend fragment layout) (bound : Nat) :
    (operator.arrange [fragment]).text backend bound = spell backend bound (operator.layOut [layout]) := by
  have apart := operand.detached bound
  simp only [Operator.arrange, Operator.layOut, form, List.cons_append, List.nil_append, Fragment.text,
    Fragment.text_append, join_empty_right, operand.text, join_parenthesis, join_parenthesis_right]
  rw [join_apart (detached_name operator).ends (apart.starts.append _)]
  simp [spell, spell_append, spelling, ordinalAfter]

private theorem text_trailing (form : operator.form = .trailing) {fragment : Fragment} {layout : List Token}
    (operand : Spelled backend fragment layout) (bound : Nat) :
    (operator.arrange [fragment]).text backend bound = spell backend bound (operator.layOut [layout]) := by
  have apart := operand.detached bound
  simp only [Operator.arrange, Operator.layOut, form, List.cons_append, List.nil_append, Fragment.text,
    Fragment.text_append, join_empty_right, operand.text, join_parenthesis, join_parenthesis_right]
  rw [join_apart apart.ends ((detached_name operator).starts.append _)]
  simp [spell, spell_append, spelling, ordinalAfter]

private theorem text_joining (form : operator.form = .joining) {fragment : Fragment} {layout : List Token}
    {fragments : List Fragment} {layouts : List (List Token)} (first : Spelled backend fragment layout)
    (rest : List.Forall₂ (Spelled backend) fragments layouts) (bound : Nat) :
    (operator.arrange (fragment :: fragments)).text backend bound =
      spell backend bound (operator.layOut (layout :: layouts)) := by
  have joined := join_joined operator rest (first.detached bound).ends (bound + holes layout)
  simp only [Operator.arrange, Operator.layOut, form, List.cons_append, List.nil_append, List.append_assoc,
    Fragment.text, Fragment.text_append, join_empty_right, first.text, first.holes, join_parenthesis,
    join_parenthesis_right]
  rw [← join_parenthesis_right, ← join_assoc, joined, join_parenthesis_right]
  simp [spell, spell_append, spelling, ordinalAfter, String.append_assoc]

private theorem text_membership (form : operator.form = .membership) {value array : Fragment}
    {valueLayout arrayLayout : List Token} (left : Spelled backend value valueLayout)
    (right : Spelled backend array arrayLayout) (bound : Nat) :
    (operator.arrange [value, array]).text backend bound =
      spell backend bound (operator.layOut [valueLayout, arrayLayout]) := by
  have apart := left.detached bound
  have equal : Detached "=" := detached_name .equal
  have any : ∀ text, join "any(" text = "any" ++ ("(" ++ text) := by
    intro text
    rw [join_opening text (by simp [String.back?_eq]), ← String.append_assoc]
    rfl
  have closed : ∀ text, join text (")" ++ ")") = text ++ (")" ++ ")") := fun text =>
    join_closing text (by simp [String.front?_eq])
  simp only [Operator.arrange, Operator.layOut, form, List.cons_append, List.nil_append, List.append_assoc,
    Fragment.text, Fragment.text_append, join_empty_right, left.text, left.holes, right.text, join_parenthesis,
    join_parenthesis_right, any, closed]
  rw [join_word apart.ends equal (startsApart_of_toList 'a' _ (by simp; rfl) (by decide))]
  simp [spell, spell_append, spelling, ordinalAfter, Operator.name]

private theorem text_range (form : operator.form = .range) {value lower upper : Fragment}
    {valueLayout lowerLayout upperLayout : List Token} (middle : Spelled backend value valueLayout)
    (least : Spelled backend lower lowerLayout) (greatest : Spelled backend upper upperLayout) (bound : Nat) :
    (operator.arrange [value, lower, upper]).text backend bound =
      spell backend bound (operator.layOut [valueLayout, lowerLayout, upperLayout]) := by
  have between : Detached "between" := detached_name .between
  have and : Detached "and" := detached_name .and
  have valueApart := middle.detached bound
  have lowerApart := least.detached (bound + holes valueLayout)
  have upperApart := greatest.detached (bound + holes valueLayout + holes lowerLayout)
  simp only [Operator.arrange, Operator.layOut, form, List.cons_append, List.nil_append, List.append_assoc,
    Fragment.text, Fragment.text_append, join_empty_right, middle.text, middle.holes, least.text, least.holes,
    greatest.text, join_parenthesis, join_parenthesis_right]
  rw [join_word lowerApart.ends and (upperApart.starts.append _),
    join_word valueApart.ends between (lowerApart.starts.append _)]
  simp [spell, spell_append, spelling, ordinalAfter, Operator.name, Nat.add_assoc]

end Layout

/-! ## The text of a skeleton -/

private theorem holes_joined (operator : Operator) (layouts : List (List Token)) :
    holes (layouts.flatMap (.space :: .word operator :: .space :: ·)) = holes layouts.flatten := by
  induction layouts with
  | nil => rfl
  | cons layout rest ih => simp [ih]

theorem Operator.holes_layOut (operator : Operator) (operands : List (List Token)) :
    holes (operator.layOut operands) = holes operands.flatten := by
  unfold Operator.layOut
  split <;> simp [holes_joined]

theorem Operator.layOut_framed {operator : Operator} {operands : List (List Token)}
    (takes : operator.Takes operands) : ∃ inner, operator.layOut operands = [.opening] ++ inner ++ [.closing] := by
  cases takes with
  | @leading operand form => exact ⟨[.word operator, .space] ++ operand, by simp [layOut, form]⟩
  | @trailing operand form => exact ⟨operand ++ [.space, .word operator], by simp [layOut, form]⟩
  | @joining first second rest form =>
      exact ⟨first ++ (second :: rest).flatMap (.space :: .word operator :: .space :: ·), by simp [layOut, form]⟩
  | @membership value array form =>
      exact ⟨value ++ [.space, .word .equal, .space, .word .any, .opening] ++ array ++ [.closing],
        by simp [layOut, form]⟩
  | @range value lower upper form =>
      exact ⟨value ++ [.space, .word .between, .space] ++ lower ++ [.space, .word .and, .space] ++ upper,
        by simp [layOut, form]⟩

namespace Sql.FieldPath

theorem spell_tokens (path : FieldPath) (backend : Backend) (bound : Nat) :
    spell backend bound path.tokens = path.text := by
  have points : ∀ rest : List String, spell backend bound (rest.flatMap fun name => [.point, .quoted name]) =
      String.join (rest.map fun name => "." ++ quoted name) := by
    intro rest
    induction rest with
    | nil => rfl
    | cons name rest ih => simp [spell, spelling, ordinalAfter, ih, String.append_assoc]
  unfold tokens text
  rcases path.segments with _ | ⟨first, _ | ⟨second, rest⟩⟩
  · rfl
  · simp [tokensOf, textOf, spell, spelling]
  · rw [tokensOf, textOf]
    · simp only [spell, spelling, ordinalAfter, points]
      simp [String.append_assoc]
    · simp
    · simp

theorem mem_tokens {path : FieldPath} {token : Token} (member : token ∈ path.tokens) :
    token ∈ [.opening, .closing, .point] ∨ ∃ name ∈ path.segments, token = .quoted name := by
  unfold tokens tokensOf at member
  split at member
  · cases member
  · next only shape => exact .inr ⟨only, by simp [shape], by simpa using member⟩
  · next first rest _ shape =>
      simp only [List.mem_cons, List.mem_flatMap, List.not_mem_nil, or_false] at member
      rcases member with rfl | rfl | rfl | ⟨name, known, rfl | rfl⟩
      · simp
      · exact .inr ⟨first, by simp [shape], rfl⟩
      · simp
      · simp
      · exact .inr ⟨name, by simp [shape, known], rfl⟩

theorem holes_tokens (path : FieldPath) : holes path.tokens = 0 :=
  List.count_eq_zero.mpr fun member => by simpa using mem_tokens member

private theorem endsApart_points (first : String) (rest : List String) :
    EndsApart (String.join ((first :: rest).map fun name => "." ++ quoted name)) := by
  induction rest generalizing first with
  | nil => simpa using (detached_quoted first).ends.append "."
  | cons second rest ih =>
      rw [List.map_cons, String.join_cons]
      exact (ih second).append _

theorem detached_text (path : FieldPath) : Detached path.text := by
  unfold text
  match shape : path.segments with
  | [] => exact absurd shape path.nonempty
  | [only] => exact detached_quoted only
  | first :: second :: rest =>
      have starts : StartsApart "(" := startsApart_of_toList '(' [] (by simp) (by decide)
      have ends := endsApart_points second rest
      simp only [textOf]
      exact ⟨((starts.append _).append _).append _, ends.append _⟩

end Sql.FieldPath

namespace Skeleton

variable {backend : Backend}

theorem spelled_operation {operator : Operator} {fragments : List Fragment} {layouts : List (List Token)}
    (takes : operator.Takes fragments) (each : List.Forall₂ (Spelled backend) fragments layouts) :
    ∀ bound, (operator.arrange fragments).text backend bound = spell backend bound (operator.layOut layouts) := by
  intro bound
  cases takes with
  | leading form =>
      obtain _ | ⟨operand, _ | _⟩ := each
      exact text_leading form operand bound
  | trailing form =>
      obtain _ | ⟨operand, _ | _⟩ := each
      exact text_trailing form operand bound
  | joining form =>
      obtain _ | ⟨first, rest⟩ := each
      exact text_joining form first rest bound
  | membership form =>
      obtain _ | ⟨value, _ | ⟨array, _ | _⟩⟩ := each
      exact text_membership form value array bound
  | range form =>
      obtain _ | ⟨value, _ | ⟨lower, _ | ⟨upper, _ | _⟩⟩⟩ := each
      exact text_range form value lower upper bound

private theorem holes_flatten {backend : Backend} {fragments : List Fragment} {layouts : List (List Token)}
    (each : List.Forall₂ (Spelled backend) fragments layouts) :
    (fragments.flatMap Fragment.arguments).length = holes layouts.flatten := by
  induction each with
  | nil => rfl
  | cons head _ ih => simp [ih, head.holes]

theorem Admitted.spelled {skeleton : Skeleton Value} (admitted : skeleton.Admitted) :
    Spelled backend skeleton.fragment skeleton.tokens := by
  induction admitted with
  | value =>
      have apart : ∀ bound, Detached (spell backend bound [.placeholder]) := by
        intro bound
        simpa [spell, spelling] using detached_placeholder backend (bound + 1)
      exact ⟨fun bound => by simp [Fragment.text, spell, spelling], apart, rfl⟩
  | @column path =>
      have text : ∀ bound, spell backend bound path.tokens = path.text := path.spell_tokens backend
      refine ⟨fun bound => ?_, fun bound => ?_, ?_⟩
      · simp [Fragment.text, text]
      · simpa [text] using path.detached_text
      · exact path.holes_tokens.symm
  | @operation operator operands takes _ ih =>
      have each : List.Forall₂ (Spelled backend) (operands.map fragment) (operands.map tokens) := by
        rw [List.forall₂_map_left_iff, List.forall₂_map_right_iff, List.forall₂_same]
        exact ih
      refine ⟨fun bound => ?_, fun bound => ?_, ?_⟩
      · simpa using spelled_operation (takes.map fragment) each bound
      · obtain ⟨inner, framed⟩ := Operator.layOut_framed (takes.map tokens)
        rw [tokens_operation, framed, spell_append, spell_append]
        exact detached_parenthesized _
      · rw [fragment_operation, tokens_operation, Operator.arguments_arrange, Operator.holes_layOut]
        exact holes_flatten each

theorem Admitted.holes_tokens {skeleton : Skeleton Value} (admitted : skeleton.Admitted) :
    holes skeleton.tokens = skeleton.values.length := by
  have spelled : Spelled .postgres skeleton.fragment skeleton.tokens := admitted.spelled
  rw [← spelled.holes, arguments_fragment]

/-! ## What stands in the text of a skeleton -/

private theorem mem_layOut {operator : Operator} {layouts : List (List Token)} {token : Token}
    (member : token ∈ operator.layOut layouts) :
    token ∈ layouts.flatten ∨ token ∈ [.opening, .closing, .space] ∨ ∃ operator, token = .word operator := by
  unfold Operator.layOut at member
  split at member <;> simp at member ⊢ <;> grind

/-- Whatever holds of all signs and words and of the names of the columns holds of everything that a skeleton writes. -/
theorem forall_mem_tokens {α : Type} (holds : Token → Prop)
    (signs : ∀ token ∈ [.opening, .closing, .point, .space, .placeholder], holds token)
    (words : ∀ operator, holds (.word operator)) (skeleton : Skeleton α)
    (names : ∀ path ∈ skeleton.columns, ∀ name ∈ path.segments, holds (.quoted name)) :
    ∀ token ∈ skeleton.tokens, holds token := by
  induction skeleton with
  | value held => simpa using signs .placeholder (by simp)
  | column path =>
      intro token member
      rcases FieldPath.mem_tokens member with sign | ⟨name, known, rfl⟩
      · exact signs token (by simp at sign ⊢; tauto)
      · exact names path (by simp) name known
  | operation operator operands ih =>
      intro token member
      rw [tokens_operation] at member
      rcases mem_layOut member with inner | sign | ⟨other, rfl⟩
      · obtain ⟨layout, known, inside⟩ := List.mem_flatten.mp inner
        obtain ⟨operand, present, rfl⟩ := List.mem_map.mp known
        refine ih operand present (fun path column => names path ?_) token inside
        simpa using ⟨operand, present, column⟩
      · exact signs token (by simp at sign ⊢; tauto)
      · exact words other

theorem truth_not_mem_tokens {α : Type} (skeleton : Skeleton α) : .truth ∉ skeleton.tokens := by
  have other := forall_mem_tokens (· ≠ .truth) (by simp) (by simp) skeleton (by simp)
  exact fun member => other _ member rfl

theorem quotable_tokens {α : Type} (skeleton : Skeleton α) : Quotable skeleton.tokens := by
  have plain := forall_mem_tokens (fun token => ∀ name, token = .quoted name → '"' ∉ name.toList) (by simp)
    (by simp) skeleton fun path _ name known => by simpa using FieldPath.quote_not_mem known
  exact fun name member => plain _ member name rfl

end Skeleton

end FilterSql
