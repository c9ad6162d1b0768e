import FilterSql.Proofs.Expr.Compile
import FilterSql.Schema.Loaded

/-!
# Reading expressions back

The text of an accepted expression tells its operators, how many operands each of them has, its columns and the places
of its values: there is one reader that recovers them.
-/

set_option autoImplicit false

namespace FilterSql

open Schema (RecordType resolve)
open Sql (FieldPath Token)
open Sql.Token (Following lex)

/-! ## The reader -/

def Skeleton.column? (segments : List String) : Option (Skeleton Unit) :=
  (FieldPath.ofSegments segments).toOption.map .column

namespace Sql.Token

open Skeleton (column?)

/-- The names behind points at the start of some tokens, and what is left of the tokens. -/
def readNames : List Token → List String × List Token
  | .point :: .quoted name :: rest =>
    let (names, rest) := readNames rest
    (name :: names, rest)
  | rest => ([], rest)

mutual

def readOperand : (fuel : Nat) → List Token → Option (Skeleton Unit × List Token)
  | _ + 1, .placeholder :: rest => some (.value (), rest)
  | _ + 1, .quoted only :: rest => (column? [only]).map fun column => (column, rest)
  | _ + 1, .opening :: .quoted first :: .closing :: .point :: .quoted second :: rest =>
    let (names, rest) := readNames rest
    (column? (first :: second :: names)).map fun column => (column, rest)
  | fuel + 1, .opening :: .word operator :: .space :: rest => do
    let (operand, rest) ← readOperand fuel rest
    let rest ← rest.dropPrefix? [.closing]
    some (.operation operator [operand], rest)
  | fuel + 1, .opening :: rest => do
    let (first, rest) ← readOperand fuel rest
    readOperation fuel first rest
  | _, _ => none

/-- Reads on behind the first operand of an operation. -/
def readOperation : (fuel : Nat) → Skeleton Unit → List Token → Option (Skeleton Unit × List Token)
  | fuel + 1, first, .space :: .word operator :: rest =>
    match operator.form, rest with
    | .trailing, .closing :: rest => some (.operation operator [first], rest)
    | .joining, .space :: .word .any :: .opening :: rest => do
      let (array, rest) ← readOperand fuel rest
      let rest ← rest.dropPrefix? [.closing, .closing]
      some (.operation .any [first, array], rest)
    | .joining, .space :: rest => do
      let (second, rest) ← readOperand fuel rest
      let (others, rest) ← readJoined fuel operator rest
      some (.operation operator (first :: second :: others), rest)
    | .range, .space :: rest => do
      let (lower, rest) ← readOperand fuel rest
      let rest ← rest.dropPrefix? [.space, .word .and, .space]
      let (upper, rest) ← readOperand fuel rest
      let rest ← rest.dropPrefix? [.closing]
      some (.operation operator [first, lower, upper], rest)
    | _, _ => none
  | _, _, _ => none

/-- Reads further operands of a joining operator, up to the parenthesis that closes the operation. -/
def readJoined : (fuel : Nat) → Operator → List Token → Option (List (Skeleton Unit) × List Token)
  | _ + 1, _, .closing :: rest => some ([], rest)
  | fuel + 1, operator, .space :: .word other :: .space :: rest =>
    if other = operator then do
      let (next, rest) ← readOperand fuel rest
      let (others, rest) ← readJoined fuel operator rest
      some (next :: others, rest)
    else none
  | _, _, _ => none

end

end Sql.Token

/-- The skeleton of the expression that a text is the SQL of. -/
def readback (backend : Backend) (text : String) : Option (Skeleton Unit) := do
  let tokens ← lex backend text
  let (shape, rest) ← Token.readOperand tokens.length tokens
  if rest.isEmpty then some shape else none

/-! ## Operands are read -/

theorem Operator.eq_any_of_form {operator : Operator} (form : operator.form = .membership) : operator = .any := by
  cases operator <;> first | rfl | cases form

theorem Operator.eq_between_of_form {operator : Operator} (form : operator.form = .range) : operator = .between := by
  cases operator <;> first | rfl | cases form

namespace Sql.Token

open Skeleton (column?)

/-- A sequence of tokens from which the reader takes a skeleton, and nothing of what follows. -/
def Reads (layout : List Token) (shape : Skeleton Unit) : Prop :=
  ∀ (fuel : Nat) ⦃rest : List Token⦄, Following rest → layout.length + rest.length ≤ fuel →
    readOperand fuel (layout ++ rest) = some (shape, rest)

inductive Starts : List Token → Prop where
  | placeholder : Starts [.placeholder]
  | quoted {name : String} : Starts [.quoted name]
  | opening {rest : List Token} : Starts (.opening :: rest)

theorem column?_segments (path : FieldPath) : column? path.segments = some (.column path) := by
  have accepted : FieldPath.ofSegments path.segments = .ok path := FieldPath.ofSegments_ok_iff.mpr rfl
  simp [column?, accepted, Except.toOption]

private theorem readNames_following {rest : List Token} (following : Following rest) : readNames rest = ([], rest) := by
  cases following with
  | done => rfl
  | space => rfl
  | closing => rfl

private theorem readNames_points (names : List String) {rest : List Token} (following : Following rest) :
    readNames ((names.flatMap fun name => [.point, .quoted name]) ++ rest) = (names, rest) := by
  induction names with
  | nil => exact readNames_following following
  | cons name names ih => simp [readNames, ih]

theorem reads_placeholder : Reads [.placeholder] (.value ()) := by
  intro fuel rest _ enough
  cases fuel with
  | zero => simp at enough
  | succ fuel => rfl

theorem reads_path (path : FieldPath) : Reads path.tokens (.column path) := by
  intro fuel rest following enough
  have column := column?_segments path
  unfold FieldPath.tokens at enough ⊢
  match shape : path.segments, fuel with
  | [], _ => exact absurd shape path.nonempty
  | [only], 0 => simp [shape, FieldPath.tokensOf] at enough
  | [only], fuel + 1 =>
      rw [shape] at column
      simp [FieldPath.tokensOf, readOperand, column]
  | first :: second :: names, 0 => simp [shape, FieldPath.tokensOf] at enough
  | first :: second :: names, fuel + 1 =>
      rw [shape] at column
      simp [FieldPath.tokensOf, readOperand, readNames_points names following, column]

/-- Behind a parenthesis the reader looks for the first operand, unless it sees the start of a path or a word. -/
private theorem readOperand_opening {layout : List Token} {shape : Skeleton Unit} (starts : Starts layout)
    (reads : Reads layout shape) (fuel : Nat) (rest : List Token)
    (enough : layout.length + (rest.length + 1) ≤ fuel) :
    readOperand (fuel + 1) (.opening :: (layout ++ .space :: rest)) = readOperation fuel shape (.space :: rest) := by
  have first : readOperand fuel (layout ++ .space :: rest) = some (shape, .space :: rest) :=
    reads fuel .space enough
  have inner : readOperand (fuel + 1) (.opening :: (layout ++ .space :: rest)) = (do
      let (first, rest) ← readOperand fuel (layout ++ .space :: rest)
      readOperation fuel first rest) := by
    -- None of the three starts is one of the patterns that are tried before.
    cases starts with
    | placeholder => rfl
    | quoted => rfl
    | opening => rfl
  rw [inner, first]
  rfl

private theorem readJoined_joined (operator : Operator) {layouts : List (List Token)} {shapes : List (Skeleton Unit)}
    (each : List.Forall₂ Reads layouts shapes) (fuel : Nat) {rest : List Token} (following : Following rest)
    (enough : (layouts.flatMap (.space :: .word operator :: .space :: ·)).length + (rest.length + 1) ≤ fuel) :
    readJoined fuel operator (layouts.flatMap (.space :: .word operator :: .space :: ·) ++ .closing :: rest) =
      some (shapes, rest) := by
  induction each generalizing fuel with
  | nil =>
      cases fuel with
      | zero => omega
      | succ fuel => rfl
  | @cons layout shape layouts shapes head _ ih =>
      simp only [List.flatMap_cons, List.cons_append, List.append_assoc, List.length_cons, List.length_append]
        at enough ⊢
      cases fuel with
      | zero => omega
      | succ fuel =>
          have next := head fuel (following_joined operator layouts (.closing following))
            (by simp only [List.length_append, List.length_cons]; omega)
          have others := ih fuel (by omega)
          simp [readJoined, next, others]

section Operations

variable {operator : Operator} {rest : List Token} {fuel : Nat}

private theorem reads_leading (form : operator.form = .leading) {layout : List Token} {shape : Skeleton Unit}
    (operand : Reads layout shape) : Reads (operator.layOut [layout]) (.operation operator [shape]) := by
  intro fuel rest following enough
  simp only [Operator.layOut, form, List.cons_append, List.nil_append, List.append_assoc, List.length_cons,
    List.length_append, List.length_nil] at enough ⊢
  cases fuel with
  | zero => omega
  | succ fuel =>
      have inner := operand fuel (.closing following) (by simp only [List.length_cons]; omega)
      simp [readOperand, inner, List.dropPrefix?]

private theorem reads_trailing (form : operator.form = .trailing) {layout : List Token} {shape : Skeleton Unit}
    (starts : Starts layout) (operand : Reads layout shape) :
    Reads (operator.layOut [layout]) (.operation operator [shape]) := by
  intro fuel rest following enough
  simp only [Operator.layOut, form, List.cons_append, List.nil_append, List.append_assoc, List.length_cons,
    List.length_append, List.length_nil] at enough ⊢
  obtain ⟨fuel, rfl⟩ := Nat.exists_eq_add_of_le' (show 2 ≤ fuel by omega)
  rw [readOperand_opening starts operand (fuel + 1) _ (by simp only [List.length_cons]; omega)]
  simp [readOperation, form]

/-- An operand is not taken for the second word of a membership. -/
private theorem readOperation_joining (form : operator.form = .joining) {layout : List Token} (starts : Starts layout)
    (fuel : Nat) (first : Skeleton Unit) (rest : List Token) :
    readOperation (fuel + 1) first (.space :: .word operator :: .space :: (layout ++ rest)) = (do
      let (second, rest) ← readOperand fuel (layout ++ rest)
      let (others, rest) ← readJoined fuel operator rest
      some (.operation operator (first :: second :: others), rest)) := by
  cases starts <;> simp [readOperation, form]

private theorem reads_joining (form : operator.form = .joining) {layout next : List Token}
    {layouts : List (List Token)} {shape second : Skeleton Unit} {shapes : List (Skeleton Unit)}
    (starts : Starts layout) (goesOn : Starts next) (operand : Reads layout shape) (other : Reads next second)
    (others : List.Forall₂ Reads layouts shapes) :
    Reads (operator.layOut (layout :: next :: layouts)) (.operation operator (shape :: second :: shapes)) := by
  intro fuel rest following enough
  simp only [Operator.layOut, form, List.flatMap_cons, List.cons_append, List.nil_append, List.append_assoc,
    List.length_cons, List.length_append, List.length_nil] at enough ⊢
  obtain ⟨fuel, rfl⟩ := Nat.exists_eq_add_of_le' (show 2 ≤ fuel by omega)
  have middle := other fuel (following_joined operator layouts (.closing following))
    (by simp only [List.length_append, List.length_cons]; omega)
  have joined := readJoined_joined operator others fuel following (by omega)
  rw [readOperand_opening starts operand (fuel + 1) _
    (by simp only [List.length_append, List.length_cons]; omega)]
  simp [readOperation_joining form goesOn, middle, joined]

private theorem reads_membership (form : operator.form = .membership) {left right : List Token}
    {value array : Skeleton Unit} (starts : Starts left) (first : Reads left value) (second : Reads right array) :
    Reads (operator.layOut [left, right]) (.operation operator [value, array]) := by
  obtain rfl : operator = .any := Operator.eq_any_of_form form
  intro fuel rest following enough
  simp only [Operator.layOut, form, List.cons_append, List.nil_append, List.append_assoc, List.length_cons,
    List.length_append, List.length_nil] at enough ⊢
  obtain ⟨fuel, rfl⟩ := Nat.exists_eq_add_of_le' (show 2 ≤ fuel by omega)
  have last := second fuel (.closing (.closing following)) (by simp only [List.length_cons]; omega)
  rw [readOperand_opening starts first (fuel + 1) _
    (by simp only [List.length_append, List.length_cons]; omega)]
  simp [readOperation, Operator.form, last, List.dropPrefix?]

private theorem reads_range (form : operator.form = .range) {middle least greatest : List Token}
    {value lower upper : Skeleton Unit} (starts : Starts middle) (first : Reads middle value)
    (second : Reads least lower) (third : Reads greatest upper) :
    Reads (operator.layOut [middle, least, greatest]) (.operation operator [value, lower, upper]) := by
  obtain rfl : operator = .between := Operator.eq_between_of_form form
  intro fuel rest following enough
  simp only [Operator.layOut, form, List.cons_append, List.nil_append, List.append_assoc, List.length_cons,
    List.length_append, List.length_nil] at enough ⊢
  obtain ⟨fuel, rfl⟩ := Nat.exists_eq_add_of_le' (show 2 ≤ fuel by omega)
  have start : readOperand fuel (least ++ .space :: .word .and :: .space :: (greatest ++ .closing :: rest)) =
      some (lower, .space :: .word .and :: .space :: (greatest ++ .closing :: rest)) :=
    second fuel .space (by simp only [List.length_append, List.length_cons]; omega)
  have stop := third fuel (.closing following) (by simp only [List.length_cons]; omega)
  rw [readOperand_opening starts first (fuel + 1) _
    (by simp only [List.length_append, List.length_cons]; omega)]
  simp [readOperation, Operator.form, start, stop, List.dropPrefix?]

end Operations

theorem reads_layOut {operator : Operator} {layouts : List (List Token)} {shapes : List (Skeleton Unit)}
    (takes : operator.Takes layouts) (starts : ∀ layout ∈ layouts, Starts layout)
    (each : List.Forall₂ Reads layouts shapes) :
    Reads (operator.layOut layouts) (.operation operator shapes) := by
  cases takes with
  | leading form =>
      obtain _ | ⟨operand, _ | _⟩ := each
      exact reads_leading form operand
  | trailing form =>
      obtain _ | ⟨operand, _ | _⟩ := each
      exact reads_trailing form (starts _ (by simp)) operand
  | joining form =>
      obtain _ | ⟨operand, _ | ⟨other, others⟩⟩ := each
      exact reads_joining form (starts _ (by simp)) (starts _ (by simp)) operand other others
  | membership form =>
      obtain _ | ⟨value, _ | ⟨array, _ | _⟩⟩ := each
      exact reads_membership form (starts _ (by simp)) value array
  | range form =>
      obtain _ | ⟨value, _ | ⟨lower, _ | ⟨upper, _ | _⟩⟩⟩ := each
      exact reads_range form (starts _ (by simp)) value lower upper

end Sql.Token

namespace Skeleton

variable {α : Type}

theorem Admitted.starts {skeleton : Skeleton α} (admitted : skeleton.Admitted) : Token.Starts skeleton.tokens := by
  cases admitted with
  | value => exact .placeholder
  | @column path =>
      rw [tokens_column, FieldPath.tokens]
      match shape : path.segments with
      | [] => exact absurd shape path.nonempty
      | [only] => exact .quoted
      | first :: second :: names => exact .opening
  | operation takes _ =>
      obtain ⟨inner, framed⟩ := Operator.layOut_framed (takes.map tokens)
      rw [tokens_operation, framed]
      exact .opening

theorem Admitted.reads {skeleton : Skeleton α} (admitted : skeleton.Admitted) :
    Token.Reads skeleton.tokens skeleton.bare := by
  induction admitted with
  | value => exact Token.reads_placeholder
  | column => exact Token.reads_path _
  | @operation operator operands takes each ih =>
      have reads : List.Forall₂ Token.Reads (operands.map tokens) (operands.map Skeleton.bare) := by
        rw [List.forall₂_map_left_iff, List.forall₂_map_right_iff, List.forall₂_same]
        exact ih
      rw [tokens_operation, bare_operation]
      have starts := fun operand known => (each operand known).starts
      exact Token.reads_layOut (takes.map tokens) (by simpa using starts) reads

end Skeleton

theorem readback_spell {α : Type} {skeleton : Skeleton α} (admitted : skeleton.Admitted) (backend : Backend)
    (bound : Nat) : readback backend (Token.spell backend bound skeleton.tokens) = some skeleton.bare := by
  have lexed := Token.lex_spell backend skeleton.quotable_tokens admitted.separated bound
  have operand := admitted.reads skeleton.tokens.length .done (by simp)
  rw [List.append_nil] at operand
  simp [readback, lexed, operand]

/-! ## Expressions are read back -/

namespace Expr

variable {ρ : Type} [RecordType ρ]

mutual

/-- The skeleton of a value: its operators, the columns that its names lead to, and the places of its scalars and
casts. -/
def shape? (schema : Option ρ) : Json → Option (Skeleton Unit)
  | .object _ => none
  | .string name => do
    let resolved ← (resolve schema name).toOption
    some (.column resolved.path)
  | .array (.string head :: operands) =>
    match Operator.ofName? head with
    | none => some (.value ())
    | some operator => (shapes? schema operands).map (.operation operator)
  | .array _ => none
  | _ => some (.value ())

def shapes? (schema : Option ρ) : List Json → Option (List (Skeleton Unit))
  | [] => some []
  | node :: rest => do
    let shape ← shape? schema node
    let shapes ← shapes? schema rest
    some (shape :: shapes)

end

theorem shape_eq {schema : Option ρ} {limit depth : Nat} {node : Json} {found : Skeleton Sql.Value}
    (accepted : skeleton schema limit depth node = .ok found) : shape? schema node = some found.bare := by
  refine skeleton_induct (motive := fun node found => shape? schema node = some found.bare) ?_ ?_ ?_ ?_ accepted
  · intro node scalar
    cases scalar <;> rfl
  · intro name resolved known
    simp [shape?, known, Except.toOption]
  · intro name payload value unknown _
    simp [shape?, unknown]
  · intro operator nodes parts takes each
    clear takes
    have all : shapes? schema nodes = some (parts.map Skeleton.bare) := by
      induction each with
      | nil => rfl
      | cons head _ ih => simp [shapes?, head, ih]
    simp [shape?, Operator.ofName?_name, all]

/-- The compiler accepts a value under some limits and gives this text for it. -/
def Emits (schema : Option ρ) (backend : Backend) (node : Json) (text : String) : Prop :=
  ∃ (expr : Expr ρ) (compiled : Compiled), expr.schema = schema ∧
    read expr.source expr.isBoolean expr.limits = .ok (some node) ∧ expr.compile backend = .ok compiled ∧
    compiled.text = text

theorem emits_of_text {schema : Option ρ} {backend : Backend} {node : Json} {text : String}
    (found : (compile { source := some (.value node), schema } backend).toOption.map (·.text) = some text) :
    Emits schema backend node text := by
  obtain ⟨compiled, accepted, same⟩ := compile_of_text found
  exact ⟨_, compiled, rfl, rfl, accepted, same⟩

theorem Emits.readback {schema : Option ρ} {backend : Backend} {node : Json} {text : String}
    (emits : Emits schema backend node text) :
    ∃ shape, shape? schema node = some shape ∧ FilterSql.readback backend text = some shape := by
  obtain ⟨expr, compiled, rfl, taken, accepted, rfl⟩ := emits
  cases compile_ok accepted with
  | truth other => simp [other] at taken
  | @node same found other known =>
      obtain rfl : same = node := by simpa [other] using taken
      exact ⟨found.bare, shape_eq known, readback_spell (admitted_of_skeleton known) backend 0⟩

/-- One reader recovers the skeleton of every accepted value from its text, so that values with the same text have the
same skeleton. -/
theorem emitted_unambiguous (schema : Option ρ) (backend : Backend) :
    (∀ node text, Emits schema backend node text →
      ∃ shape, shape? schema node = some shape ∧ readback backend text = some shape) ∧
    ∀ first second text, Emits schema backend first text → Emits schema backend second text →
      ∃ shape, shape? schema first = some shape ∧ shape? schema second = some shape := by
  refine ⟨fun node text emits => emits.readback, fun first second text left right => ?_⟩
  obtain ⟨shape, known, found⟩ := left.readback
  obtain ⟨other, same, again⟩ := right.readback
  obtain rfl : shape = other := by simpa [found] using again
  exact ⟨shape, known, same⟩

theorem emitted_unambiguous_literals :
    ∃ shape, shape? (none : Option Schema) (.array [.string "=", .number (.integer 1), .null]) = some shape ∧
      shape? (none : Option Schema) (.array [.string "=", .bool true, .number (.integer 2)]) = some shape :=
  (emitted_unambiguous none .sqlite).2 _ _ "(?1 = ?2)" (emits_of_text (by decide +kernel))
    (emits_of_text (by decide +kernel))

end Expr

end FilterSql
