import FilterSql.Proofs.Expr.Faults
import FilterSql.Proofs.Expr.Nesting
import FilterSql.Schema.Loaded

/-!
# Texts and values

An expression can be given as a text or as the value of one. The text is held to its limits before it is read, by a scan
that counts all of its brackets; the value is held to the depth limit while it is compiled, by a count of the lists
around an operand. Where the text is within its limits the two are the same expression.
-/

set_option autoImplicit false

namespace FilterSql.Expr

open Schema (RecordType)
open Sql (Builder)

/-! ## Who rejects for depth -/

variable {ρ : Type} [RecordType ρ]

/-- Only a list that stands too deep is at fault for its depth. -/
theorem fault_tooDeep {schema : Option ρ} {limit reached : Nat} {node : Node}
    (fault : fault? schema limit node = some (.tooDeep reached)) :
    reached = limit ∧ limit < node.depth + node.value.nesting := by
  cases faulty_of_fault fault with
  | tooDeep deep => exact ⟨rfl, deep⟩
  | path unresolved => cases unresolved

theorem nestingOfItems_le_iff {items : List Json} {bound : Nat} :
    Json.nestingOfItems items ≤ bound ↔ ∀ item ∈ items, item.nesting ≤ bound := by
  induction items with
  | nil => simp [Json.nestingOfItems]
  | cons item rest ih => rw [Json.nestingOfItems, Nat.max_le, List.forall_mem_cons, ih]

theorem nesting_le_of_mem {items : List Json} {item : Json} (member : item ∈ items) :
    item.nesting ≤ Json.nestingOfItems items :=
  nestingOfItems_le_iff.mp (Nat.le_refl _) item member

theorem mem_nodesOfAll {depth : Nat} {part : Node} {values : List Json} :
    part ∈ nodesOfAll depth values ↔ ∃ value ∈ values, part ∈ nodes depth value := by
  induction values with
  | nil => simp [nodesOfAll]
  | cons value rest ih => simp [nodesOfAll, ih]

/-- The lists around a part and those in it are nested in the whole. -/
theorem depth_add_nesting_le {depth : Nat} {node : Json} {part : Node} (member : part ∈ nodes depth node) :
    part.depth + part.value.nesting ≤ depth + node.nesting := by
  induction node generalizing depth with
  | null | bool value | number value | string name | object members =>
      obtain rfl := List.mem_singleton.mp member
      exact Nat.le_refl _
  | array items ih =>
      rcases List.mem_cons.mp member with rfl | below
      · exact Nat.le_refl _
      · unfold operandNodes at below
        split at below
        next name operands =>
          split at below
          next =>
            obtain ⟨operand, known, inside⟩ := mem_nodesOfAll.mp below
            have bounded := ih operand (.tail _ known) inside
            have nested := nesting_le_of_mem (List.mem_cons_of_mem (.string name) known)
            rw [Json.nesting]
            omega
          next => cases below
        next => cases below

/-- A value is rejected for depth only if it is nested too deep, and then with the limit. -/
theorem skeleton_tooDeep {schema : Option ρ} {limit reached : Nat} {node : Json}
    (rejected : skeleton schema limit 0 node = .error (.tooDeep reached)) : reached = limit ∧ limit < node.nesting := by
  obtain ⟨part, member, fault⟩ := exists_fault_of_rejected rejected
  obtain ⟨same, deep⟩ := fault_tooDeep fault
  have bounded := depth_add_nesting_le member
  exact ⟨same, by omega⟩

/-! ## What a text is read as -/

theorem readScalar_blank {c : Char} (blank : Text.isBlank c = true) (rest : List Char) :
    Json.readScalar c rest = .error (.upon .expectedValue (c :: rest)) := by
  have different : ∀ other, Text.isBlank other = false → c ≠ other := by
    rintro other visible rfl
    simp [blank] at visible
  have notDigit : c.isDigit = false := by
    by_contra digit
    rw [Sql.not_isBlank_of_isDigit (by simpa using digit)] at blank
    cases blank
  simp [Json.readScalar, notDigit, different 'n' (by decide), different 't' (by decide), different 'f' (by decide),
    different '-' (by decide), different '"' (by decide)]

theorem allBlank_of_parse {text : String} {tree : Json.Tree} (parsed : Json.Tree.parse text = .ok tree) :
    Text.allBlank text = false := by
  obtain ⟨rest, read, _⟩ := Json.readAll_ok_iff.mp parsed
  by_contra found
  have blank : ∀ c ∈ text.toList, Text.isBlank c = true := by simpa [Text.allBlank] using found
  unfold Json.Tree.reader at read
  split at read
  next => cases read
  next c behind shape =>
    have member : c ∈ text.toList := (List.dropWhile_sublist _).subset (shape ▸ List.mem_cons_self)
    have noBracket : c ≠ '[' ∧ c ≠ '\x7b' := by
      constructor <;> rintro rfl <;> exact absurd (blank _ member) (by decide)
    simp [noBracket, readScalar_blank (blank c member), bind, Except.bind] at read

variable {ρ : Type}

/-- The same expression with another text to be compiled. -/
def withText (expr : Expr ρ) (text : String) : Expr ρ :=
  { expr with source := some (.text text) }

theorem read_withText (expr : Expr ρ) {text : String} {tree : Json.Tree} (parsed : Json.Tree.parse text = .ok tree) :
    Expr.read (expr.withText text).source (expr.withText text).isBoolean (expr.withText text).limits =
      if expr.limits.maxInputBytes < text.utf8ByteSize then
        .error (.inputTooLarge text.utf8ByteSize expr.limits.maxInputBytes)
      else if tree.nesting ≤ expr.limits.depthLimit then .ok (some tree.value)
      else .error (.tooDeep expr.limits.depthLimit) := by
  have valueRead : Json.parse text = .ok tree.value := by rw [Json.parse_eq, parsed, Except.map]
  unfold Expr.read read.readText withText
  simp only [allBlank_of_parse parsed, checkNesting_eq parsed, valueRead, Bool.false_eq_true, if_false]
  split
  · rfl
  · split <;> rfl

variable [RecordType ρ]

theorem fragment_withText (expr : Expr ρ) {text : String} {tree : Json.Tree}
    (parsed : Json.Tree.parse text = .ok tree) :
    (expr.withText text).fragment =
      if expr.limits.maxInputBytes < text.utf8ByteSize then
        .error (.inputTooLarge text.utf8ByteSize expr.limits.maxInputBytes)
      else if tree.nesting ≤ expr.limits.depthLimit then (expr.withValue tree.value).fragment
      else .error (.tooDeep expr.limits.depthLimit) := by
  have taken := read_withText expr parsed
  by_cases large : expr.limits.maxInputBytes < text.utf8ByteSize
  · simp only [large, if_true] at taken ⊢
    exact fragment_of_read_error taken
  · by_cases within : tree.nesting ≤ expr.limits.depthLimit
    · simp only [large, within, if_true, if_false] at taken ⊢
      rw [fragment_of_read taken, fragment_withValue]
      rfl
    · simp only [large, within, if_false] at taken ⊢
      exact fragment_of_read_error taken

theorem write_error_iff {expr : Expr ρ} {builder after : Builder} {error : CompileError} :
    expr.write builder = .error error after ↔ expr.fragment = .error error ∧ after = builder := by
  rw [write_eq]
  cases expr.fragment with
  | ok fragment => simp
  | error reason => simp [eq_comm]

/-- An expression of a value is rejected for depth only where the value is nested deeper than its limit. -/
theorem withValue_tooDeep {expr : Expr ρ} {value : Json} {limit : Nat}
    (rejected : (expr.withValue value).fragment = .error (.tooDeep limit)) :
    limit = expr.limits.depthLimit ∧ expr.limits.depthLimit < value.nesting := by
  rw [fragment_withValue] at rejected
  cases accepted : skeleton expr.schema expr.limits.depthLimit 0 value with
  | error error =>
      obtain rfl : error = .tooDeep limit := by simpa [accepted, Except.map] using rejected
      exact skeleton_tooDeep accepted
  | ok found => simp [accepted, Except.map] at rejected

/-! ## The two side by side -/

/-- How an expression of a text, of which `tree` is all that it says, and one of its value compare. -/
structure Agrees (expr : Expr ρ) (text : String) (tree : Json.Tree) (builder : Builder) : Prop where
  /-- A text within the limits is its value, and nothing is too deep. -/
  within : text.utf8ByteSize ≤ expr.limits.maxInputBytes → tree.nesting ≤ expr.limits.depthLimit →
    (expr.withText text).write builder = (expr.withValue tree.value).write builder ∧
      ∀ limit after, (expr.withText text).write builder ≠ .error (.tooDeep limit) after
  /-- A text that is nested deeper is too deep, even where its value is not. -/
  beyond : text.utf8ByteSize ≤ expr.limits.maxInputBytes → expr.limits.depthLimit < tree.nesting →
    (expr.withText text).write builder = .error (.tooDeep expr.limits.depthLimit) builder
  /-- The text of a value that is too deep is too deep or too large. -/
  rejected : ∀ limit after, (expr.withValue tree.value).write builder = .error (.tooDeep limit) after →
    (expr.withText text).write builder = .error (.tooDeep expr.limits.depthLimit) builder ∨
      (expr.withText text).write builder =
        .error (.inputTooLarge text.utf8ByteSize expr.limits.maxInputBytes) builder

/-- An expression may be given as a text or as its value: the two are compiled to the same, but for a text over the
limits, which is counted with the members that a later one of the same name replaces. -/
theorem write_sources (expr : Expr ρ) {text : String} {value : Json} (parsed : Json.parse text = .ok value) :
    ∃ tree, Json.Tree.parse text = .ok tree ∧ tree.value = value ∧
      ∀ builder, expr.Agrees text tree builder := by
  obtain ⟨tree, read, same⟩ : ∃ tree, Json.Tree.parse text = .ok tree ∧ tree.value = value := by
    rw [Json.parse_eq] at parsed
    cases read : Json.Tree.parse text with
    | error error => simp [read, Except.map] at parsed
    | ok tree => exact ⟨tree, rfl, by simpa [read, Except.map] using parsed⟩
  have taken := fragment_withText expr read
  refine ⟨tree, read, same, fun builder =>
    ⟨fun small shallow => ?_, fun small deep => ?_, fun limit after tooDeep => ?_⟩⟩
  · have equal : (expr.withText text).fragment = (expr.withValue tree.value).fragment := by
      rw [taken, if_neg (by omega), if_pos shallow]
    refine ⟨by rw [write_eq, write_eq, equal], fun limit after tooDeep => ?_⟩
    have deep := (withValue_tooDeep (equal ▸ (write_error_iff.mp tooDeep).1)).2
    have bounded := tree.nesting_value_le
    omega
  · exact write_error_iff.mpr ⟨by rw [taken, if_neg (by omega), if_neg (by omega)], rfl⟩
  · -- What is too deep in the value is so in its text, which holds at least as much.
    have deep := (withValue_tooDeep (write_error_iff.mp tooDeep).1).2
    have bounded := tree.nesting_value_le
    rw [if_neg (by omega : ¬ tree.nesting ≤ expr.limits.depthLimit)] at taken
    by_cases large : expr.limits.maxInputBytes < text.utf8ByteSize
    · exact .inr (write_error_iff.mpr ⟨by rw [taken, if_pos large], rfl⟩)
    · exact .inl (write_error_iff.mpr ⟨by rw [taken, if_neg large], rfl⟩)

/-- A document in a column, whose text may be nested twice. -/
def shallowDocument : Expr Schema where
  schema := some (.mk "Row" [.scalar "doc" "doc" .json false false])
  limits := { maxDepth := 2 }

/-- A document whose only member is given twice, the first time as a list. -/
def replacedMember : String := "[\"doc\", \x7b\"a\": [], \"a\": 1\x7d]"

theorem write_sources_replacedMember :
    ∃ tree, Json.Tree.parse replacedMember = .ok tree ∧
      tree.value = .array [.string "doc", .object [("a", .number (.integer 1))]] ∧
      ∀ builder, shallowDocument.Agrees replacedMember tree builder ∧
        (shallowDocument.withText replacedMember).write builder = .error (.tooDeep 2) builder := by
  obtain ⟨tree, read, same, agrees⟩ := write_sources shallowDocument
    (by decide +kernel : Json.parse replacedMember =
      .ok (.array [.string "doc", .object [("a", .number (.integer 1))]]))
  have deep : (Json.Tree.parse replacedMember).toOption.map Json.Tree.nesting = some 3 := by decide +kernel
  have nested : tree.nesting = 3 := by simpa [read, Except.toOption] using deep
  exact ⟨tree, read, same, fun builder => ⟨agrees builder,
    (agrees builder).beyond (by decide +kernel) (by rw [nested]; decide)⟩⟩

end FilterSql.Expr
