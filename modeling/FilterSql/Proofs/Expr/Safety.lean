import FilterSql.Proofs.Expr.Compile
import FilterSql.Schema.Loaded

/-!
# Nothing a client writes gets into the text

The text of an accepted expression consists of tokens that the compiler chooses. The only names in it are the columns
that the names of the client lead to; literals, casts and the names themselves leave no character.
-/

set_option autoImplicit false

namespace FilterSql.Expr

open Schema (RecordType resolve)
open Sql (Token)
open Sql.Token (holes lex paths spell Separated)

mutual

/-- The names that refer to fields: the strings at the root and in the places of operands, from left to right. -/
def references : Json → List String
  | .string name => [name]
  | .array (.string head :: operands) => if (Operator.ofName? head).isSome then referencesOfAll operands else []
  | _ => []

def referencesOfAll : List Json → List String
  | [] => []
  | node :: rest => references node ++ referencesOfAll rest

end

variable {ρ : Type}

def referenced (expr : Expr ρ) : List String :=
  match read expr.source expr.isBoolean expr.limits with
  | .ok (some node) => references node
  | _ => []

/-- A blank where a Boolean is asked for. -/
structure BlankBoolean (expr : Expr ρ) : Prop where
  isBoolean : expr.isBoolean = true
  blank : ∀ source ∈ expr.source, ∃ text, source = .text text ∧ Text.allBlank text = true

theorem blankBoolean_of_read {expr : Expr ρ} (taken : read expr.source expr.isBoolean expr.limits = .ok none) :
    expr.BlankBoolean := by
  have ofText : ∀ text, read.readText expr.isBoolean expr.limits text = .ok none →
      expr.isBoolean = true ∧ Text.allBlank text = true := by
    intro text taken
    unfold read.readText at taken
    split at taken
    next => cases taken
    next =>
        split at taken
        next blank =>
            split at taken
            next isBoolean => exact ⟨isBoolean, blank⟩
            next => cases taken
        next =>
            cases nested : checkNesting text expr.limits.depthLimit with
            | error error => simp [nested, bind, Except.bind] at taken
            | ok =>
                cases parsed : (Json.parse text).mapError CompileError.notJson with
                | error error => simp [nested, parsed, bind, Except.bind] at taken
                | ok value => simp [nested, parsed, bind, Except.bind] at taken
  unfold read at taken
  match given : expr.source with
  | none =>
      rw [given] at taken
      exact ⟨(ofText _ taken).1, by simp [given]⟩
  | some (.text text) =>
      rw [given] at taken
      exact ⟨(ofText _ taken).1, by simpa [given] using (ofText _ taken).2⟩
  | some (.value value) =>
      rw [given] at taken
      cases taken

variable [RecordType ρ]

/-- A name with the columns that it leads to. -/
def LeadsTo (schema : Option ρ) (name : String) (path : List String) : Prop :=
  ∃ resolved, resolve schema name = .ok resolved ∧ resolved.path.segments = path

theorem references_lead {schema : Option ρ} {limit depth : Nat} {node : Json} {found : Skeleton Sql.Value}
    (accepted : skeleton schema limit depth node = .ok found) :
    List.Forall₂ (LeadsTo schema) (references node) (found.columns.map (·.segments)) := by
  refine skeleton_induct
    (motive := fun node found => List.Forall₂ (LeadsTo schema) (references node) (found.columns.map (·.segments)))
    ?_ ?_ ?_ ?_ accepted
  · intro node bound
    cases bound <;> exact .nil
  · intro name resolved known
    exact .cons ⟨resolved, known, rfl⟩ .nil
  · intro name payload value unknown decoded
    simp [references, unknown]
  · intro operator nodes parts takes each
    clear takes
    simp only [references, Operator.ofName?_name, Option.isSome_some, ↓reduceIte, Skeleton.columns_operation]
    induction each with
    | nil => exact .nil
    | cons head _ ih =>
        rw [referencesOfAll, List.flatMap_cons, List.map_append]
        exact List.rel_append head ih

/-- What is known of the tokens of a compiled text. -/
structure Vetted (expr : Expr ρ) (backend : Backend) (compiled : Compiled) (tokens : List Token) : Prop where
  /-- The tokens are those that are read from the text. -/
  lexed : lex backend compiled.text = some tokens
  /-- Nothing else is in the text, and its placeholders are numbered from the first on. -/
  spelt : compiled.text = spell backend 0 tokens
  /-- No two spaces are in a row. -/
  separated : Separated tokens
  holes : holes tokens = compiled.arguments.length
  /-- The word for truth is there for a blank Boolean only. Else the tokens are those of an operator tree. -/
  laidOut : tokens = [.truth] ∧ expr.BlankBoolean ∨
    .truth ∉ tokens ∧ ∃ shape : Skeleton Unit, shape.Admitted ∧ tokens = shape.tokens
  /-- The quoted names are the columns that the names of the expression lead to, in their order. -/
  names : List.Forall₂ (LeadsTo expr.schema) expr.referenced (paths tokens)
  covered : ∀ name, .quoted name ∈ tokens → ∃ path ∈ paths tokens, name ∈ path

/-- The text of an accepted expression is read as tokens, none of which a client has spelt. -/
theorem compile_vetted {expr : Expr ρ} {backend : Backend} {compiled : Compiled}
    (accepted : expr.compile backend = .ok compiled) : ∃ tokens, expr.Vetted backend compiled tokens := by
  cases compile_ok accepted with
  | truth taken =>
      have spelt : "true" = spell backend 0 [.truth] := by simp [spell, Token.spelling]
      have lexed := Token.lex_spell backend (by simp [Token.Quotable] : Token.Quotable [.truth]) (.singleton _) 0
      rw [← spelt] at lexed
      have names : List.Forall₂ (LeadsTo expr.schema) expr.referenced (paths [.truth]) := by
        simp [referenced, taken, paths]
      exact ⟨[.truth], lexed, spelt, .singleton _, rfl, .inl ⟨rfl, blankBoolean_of_read taken⟩, names,
        fun _ => Token.exists_mem_paths⟩
  | @node node found taken known =>
      have admitted := admitted_of_skeleton known
      have lexed := Token.lex_spell backend found.quotable_tokens admitted.separated 0
      have names : List.Forall₂ (LeadsTo expr.schema) expr.referenced (paths found.tokens) := by
        rw [admitted.paths_tokens, referenced, taken]
        exact references_lead known
      exact ⟨found.tokens, lexed, rfl, admitted.separated, admitted.holes_tokens,
        .inr ⟨found.truth_not_mem_tokens, found.bare, admitted.bare, found.tokens_bare.symm⟩, names,
        fun _ => Token.exists_mem_paths⟩

/-- An expression that compares a column with a literal cast to it. The column is called what looks like SQL, and so
does the literal look. -/
def hostile : Expr Schema where
  source := some (.value (.array [.string "=", .string "a", .array [.string "a", .string "') or 1 = 1"]]))
  schema := some (.mk "Row" [.scalar "a" "x) or $1 = ?" .text false false])

theorem compile_vetted_hostile :
    ∃ compiled tokens, hostile.compile .postgres = .ok compiled ∧ compiled.text = "(\"x) or $1 = ?\" = $1)" ∧
      hostile.Vetted .postgres compiled tokens := by
  obtain ⟨compiled, accepted, text⟩ : ∃ compiled, hostile.compile .postgres = .ok compiled ∧
      compiled.text = "(\"x) or $1 = ?\" = $1)" := compile_of_text (by decide +kernel)
  obtain ⟨tokens, vetted⟩ := compile_vetted accepted
  exact ⟨compiled, tokens, accepted, text, vetted⟩

end FilterSql.Expr
