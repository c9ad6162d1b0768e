import FilterSql.Proofs.Expr.Sources

/-!
# How deep an accepted expression is nested

The limit on nesting holds of a text whatever it says. Of a value it holds of the operations and the casts, which are
the lists that are counted while it is compiled, and not of what is cast: the value is within the limit just if every
payload is where it stands.
-/

set_option autoImplicit false

namespace FilterSql.Expr

open Schema (RecordType)

/-- The number of lists and objects around the innermost point of a part, those around the part included. -/
def Node.reach (node : Node) : Nat :=
  node.depth + node.value.nesting

def payload? (node : Node) : Option Node :=
  match node.value with
  | .array items =>
    match cast? items with
    | some (_, [value]) => some ⟨node.depth + 1, value⟩
    | _ => none
  | _ => none

/-- What is cast to a field anywhere in an expression. -/
def payloads (depth : Nat) (node : Json) : List Node :=
  (nodes depth node).filterMap payload?

theorem payloads_operation {depth : Nat} {name : String} {operator : Operator}
    (known : Operator.ofName? name = some operator) (operands : List Json) :
    payloads depth (.array (.string name :: operands)) = operands.flatMap (payloads (depth + 1)) := by
  have all : (nodesOfAll (depth + 1) operands).filterMap payload? = operands.flatMap (payloads (depth + 1)) := by
    induction operands with
    | nil => rfl
    | cons operand rest ih => rw [nodesOfAll, List.filterMap_append, ih, List.flatMap_cons, payloads]
  simp [payloads, nodes, operandNodes, payload?, cast?, known, all]

theorem payloads_cast {depth : Nat} {name : String} (unknown : Operator.ofName? name = none) (value : Json) :
    payloads depth (.array [.string name, value]) = [⟨depth + 1, value⟩] := by
  simp [payloads, nodes, operandNodes, payload?, cast?, unknown]

variable {ρ : Type} [RecordType ρ]

/-- An expression without faults is within the limit just if its payloads are. -/
theorem reach_le_iff {schema : Option ρ} {limit depth : Nat} {node : Json}
    (faultless : ∀ part ∈ nodes depth node, fault? schema limit part = none) (within : depth ≤ limit) :
    depth + node.nesting ≤ limit ↔ ∀ payload ∈ payloads depth node, payload.reach ≤ limit := by
  induction node generalizing depth with
  | null | bool value | number value | string name => simp [payloads, nodes, payload?, Json.nesting, within]
  | object members =>
      have fault := faultless _ (List.mem_singleton_self _)
      cases fault
  | array items ih =>
      obtain ⟨fault, below⟩ := List.forall_mem_cons.mp faultless
      have shallow : ¬ limit < depth + 1 := by
        intro deep
        simp [fault?, listFaults, deep] at fault
      cases items using list_cases with
      | empty => simp [fault?, listFaults, shallow, emptyFault?] at fault
      | other head rest notString =>
          rw [fault_head shallow rest notString] at fault
          cases fault
      | cast name arguments unknown =>
          rw [fault_cast shallow unknown] at fault
          rcases arguments with _ | ⟨value, _ | ⟨second, rest⟩⟩
          · cases fault
          · rw [payloads_cast unknown]
            simp only [Json.nesting, Json.nestingOfItems, Node.reach, List.forall_mem_singleton]
            omega
          · cases fault
      | operation name operator operands known =>
          rw [operandNodes, known, Option.isSome_some, if_pos rfl] at below
          have each : ∀ operand ∈ operands, depth + 1 + operand.nesting ≤ limit ↔
              ∀ payload ∈ payloads (depth + 1) operand, payload.reach ≤ limit := by
            intro operand member
            refine ih operand (.tail _ member) (fun part inside => ?_) (by omega)
            exact below part (mem_nodesOfAll.mpr ⟨operand, member, inside⟩)
          have operandsWithin : depth + (Json.array (.string name :: operands)).nesting ≤ limit ↔
              ∀ operand ∈ operands, depth + 1 + operand.nesting ≤ limit := by
            have bounded : Json.nestingOfItems operands ≤ limit - (depth + 1) ↔
                ∀ operand ∈ operands, operand.nesting ≤ limit - (depth + 1) := nestingOfItems_le_iff
            have shifted : ∀ operand : Json,
                operand.nesting ≤ limit - (depth + 1) ↔ depth + 1 + operand.nesting ≤ limit := fun operand => by omega
            simp only [shifted] at bounded
            have leaf : (Json.string name).nesting = 0 := rfl
            rw [← bounded, Json.nesting, Json.nestingOfItems, leaf]
            omega
          rw [payloads_operation known, List.forall_mem_flatMap, operandsWithin]
          exact forall₂_congr each

/-- How deep the source of an expression is nested. A text counts as it is written. -/
def inputNesting (expr : Expr ρ) : Nat :=
  match expr.source with
  | some (.value value) => value.nesting
  | some (.text text) =>
    match Json.Tree.parse text with
    | .ok tree => tree.nesting
    | .error _ => 0
  | none => 0

/-- What is cast to a field in the value of an expression. -/
def givenPayloads (expr : Expr ρ) : List Node :=
  match expr.source with
  | some (.value value) => payloads 0 value
  | _ => []

theorem inputNesting_text {expr : Expr ρ} {text : String} (given : expr.source = some (.text text))
    {fragment : Sql.Fragment} (accepted : expr.fragment = .ok fragment) :
    expr.inputNesting ≤ expr.limits.depthLimit := by
  unfold inputNesting
  rw [given]
  dsimp only
  cases parsed : Json.Tree.parse text with
  | error error => exact Nat.zero_le _
  | ok tree =>
      have same : expr.withText text = expr := by
        unfold withText
        rw [← given]
      have taken := fragment_withText expr parsed
      refine Nat.le_of_not_lt fun deep : expr.limits.depthLimit < tree.nesting => ?_
      rw [same, accepted, if_neg (Nat.not_le.mpr deep)] at taken
      split at taken <;> cases taken

/-- An expression that is compiled is within its limit on nesting just if all that its value casts is. One that is given
as a text is so in any case. -/
theorem compile_nesting_le_iff {expr : Expr ρ} {backend : Backend} {compiled : Compiled}
    (accepted : expr.compile backend = .ok compiled) :
    expr.inputNesting ≤ expr.limits.depthLimit ↔
      ∀ payload ∈ expr.givenPayloads, payload.reach ≤ expr.limits.depthLimit := by
  cases given : expr.source with
  | none => simp [inputNesting, givenPayloads, given]
  | some source =>
      cases source with
      | text text =>
          obtain ⟨fragment, added, _⟩ := compile_ok_iff.mp accepted
          simp [inputNesting_text given added, givenPayloads, given]
      | value value =>
          have same : expr.withValue value = expr := by
            unfold withValue
            rw [← given]
          have faultless : ∀ part ∈ nodes 0 value, fault? expr.schema expr.limits.depthLimit part = none := by
            have first := rejection_compile expr value backend
            rw [same, accepted] at first
            exact List.findSome?_eq_none_iff.mp first.symm
          have within := reach_le_iff faultless (Nat.zero_le _)
          rw [Nat.zero_add] at within
          simpa only [inputNesting, givenPayloads, given] using within

/-- A cast of a document, which may be a flat list or object and no more. -/
def castDocument (document : Json) : Expr Schema :=
  shallowDocument.withValue (.array [.string "doc", document])

theorem compile_nesting_le_iff_document :
    ((castDocument (.array [])).compile .postgres).toOption.map (·.text) = some "$1" ∧
      (castDocument (.array [])).inputNesting ≤ (castDocument (.array [])).limits.depthLimit := by
  have text : ((castDocument (.array [])).compile .postgres).toOption.map (·.text) = some "$1" := by decide +kernel
  obtain ⟨compiled, accepted, _⟩ := compile_of_text text
  refine ⟨text, (compile_nesting_le_iff accepted).mpr ?_⟩
  decide

theorem compile_exceeds_nesting :
    ¬ ∀ (expr : Expr Schema) (backend : Backend) (compiled : Compiled), expr.compile backend = .ok compiled →
      expr.inputNesting ≤ expr.limits.depthLimit := by
  intro bounded
  have text : ((castDocument (.array [.array [.array []]])).compile .postgres).toOption.map (·.text) = some "$1" := by
    decide +kernel
  obtain ⟨compiled, accepted, _⟩ := compile_of_text text
  exact absurd (bounded _ _ _ accepted) (by decide)

end FilterSql.Expr
