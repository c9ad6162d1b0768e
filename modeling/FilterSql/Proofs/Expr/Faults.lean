import FilterSql.Proofs.Expr.Compile
import FilterSql.Proofs.Schema.Resolution

/-!
# The first fault

The nodes of an expression are itself and the operands of its operations. Each node can be at fault by what it is, by
where it stands and by what its names lead to, whatever is wrong elsewhere. An expression is accepted if no node is at
fault, and is else rejected for the fault of its first node that is, from left to right and from the outside in.
-/

set_option autoImplicit false

namespace FilterSql.Expr

open Schema (RecordType resolve)

/-- A part of an expression, with the number of lists around it. -/
structure Node where
  depth : Nat
  value : Json

mutual

/-- The nodes of an expression, each of them before its operands. The payload of a cast is no node. -/
def nodes (depth : Nat) : Json → List Node
  | .array items => ⟨depth, .array items⟩ :: operandNodes depth items
  | value => [⟨depth, value⟩]

def operandNodes (depth : Nat) : List Json → List Node
  | .string head :: operands => if (Operator.ofName? head).isSome then nodesOfAll (depth + 1) operands else []
  | _ => []

def nodesOfAll (depth : Nat) : List Json → List Node
  | [] => []
  | value :: rest => nodes depth value ++ nodesOfAll depth rest

end

/-! ## Faults of one node -/

def rejection? {α : Type} : Except CompileError α → Option CompileError
  | .ok _ => none
  | .error error => some error

def emptyFault? : List Json → Option CompileError
  | [] => some .emptyList
  | _ => none

def headFault? : List Json → Option CompileError
  | [] | .string _ :: _ => none
  | head :: _ => some (.headNotString head)

def arityFault? : List Json → Option CompileError
  | .string head :: operands => do
    let operator ← Operator.ofName? head
    if operator.form.admits operands.length then none else some (.arityMismatch operator operands.length)
  | _ => none

/-- The name and the arguments of a list that is a cast. -/
def cast? : List Json → Option (String × List Json)
  | .string head :: arguments => if (Operator.ofName? head).isNone then some (head, arguments) else none
  | _ => none

def castArityFault? (items : List Json) : Option CompileError := do
  let (name, arguments) ← cast? items
  if arguments.length = 1 then none else some (.castArityMismatch name arguments.length)

variable {ρ : Type} [RecordType ρ]

def castNameFault? (schema : Option ρ) (items : List Json) : Option CompileError := do
  let (name, _) ← cast? items
  rejection? (resolve schema name)

def castPayloadFault? (schema : Option ρ) (items : List Json) : Option CompileError := do
  let (name, arguments) ← cast? items
  let payload ← arguments.head?
  let resolved ← (resolve schema name).toOption
  match resolved.field.decode payload with
  | .ok _ => none
  | .error reason => some (.castDecodeFailure name resolved.field.typeName reason)

/-- All that can be wrong with a list that stands inside `depth` others. What comes first counts. -/
def listFaults (schema : Option ρ) (limit depth : Nat) (items : List Json) : List (Option CompileError) :=
  [if limit < depth + 1 then some (.tooDeep limit) else none,
    emptyFault? items,
    headFault? items,
    arityFault? items,
    castArityFault? items,
    castNameFault? schema items,
    castPayloadFault? schema items]

/-- What is wrong with a node, if nothing else in the expression is looked at. -/
def fault? (schema : Option ρ) (limit : Nat) (node : Node) : Option CompileError :=
  match node.value with
  | .object members => some (.unexpectedObject (.object members))
  | .string name => rejection? (resolve schema name)
  | .array items => (listFaults schema limit node.depth items).findSome? id
  | _ => none

/-! ## Faults of all nodes -/

/-- The lists of an expression by their heads: none, an operator, another name, or anything else. -/
theorem list_cases {motive : List Json → Prop} (empty : motive [])
    (operation : ∀ name operator operands, Operator.ofName? name = some operator → motive (.string name :: operands))
    (cast : ∀ name arguments, Operator.ofName? name = none → motive (.string name :: arguments))
    (other : ∀ head rest, (∀ name, head ≠ .string name) → motive (head :: rest)) (items : List Json) :
    motive items := by
  cases items with
  | nil => exact empty
  | cons head rest =>
      cases head with
      | string name =>
          cases known : Operator.ofName? name with
          | none => exact cast name rest known
          | some operator => exact operation name operator rest known
      | null | bool | number | array | object => exact other _ rest (by simp)

theorem rejection_castValue {schema : Option ρ} {name : String} (unknown : Operator.ofName? name = none)
    (arguments : List Json) :
    rejection? (castValue schema name arguments) =
      [castArityFault? (.string name :: arguments), castNameFault? schema (.string name :: arguments),
        castPayloadFault? schema (.string name :: arguments)].findSome? id := by
  have isCast : cast? (.string name :: arguments) = some (name, arguments) := by simp [cast?, unknown]
  have casting := castValue_casting schema name arguments
  generalize castValue schema name arguments = result at casting ⊢
  unfold castArityFault? castNameFault? castPayloadFault?
  rw [isCast]
  cases casting with
  | arity wrong => simp [rejection?, wrong]
  | unresolved known => simp [rejection?, known, Except.toOption]
  | refused known refused => simp [rejection?, known, refused, Except.toOption]
  | decoded known held => simp [rejection?, known, held, Except.toOption]

theorem rejection_skeletons_cons (schema : Option ρ) (limit depth : Nat) (node : Json) (rest : List Json) :
    rejection? (skeletons schema limit depth (node :: rest)) =
      (rejection? (skeleton schema limit depth node)).or (rejection? (skeletons schema limit depth rest)) := by
  rw [skeletons_cons]
  cases skeleton schema limit depth node with
  | error error => rfl
  | ok found => cases skeletons schema limit depth rest <;> rfl

theorem rejection_skeletons {schema : Option ρ} {limit depth : Nat} {operands : List Json}
    (each : ∀ operand ∈ operands,
      rejection? (skeleton schema limit depth operand) = (nodes depth operand).findSome? (fault? schema limit)) :
    rejection? (skeletons schema limit depth operands) =
      (nodesOfAll depth operands).findSome? (fault? schema limit) := by
  induction operands with
  | nil => rfl
  | cons operand rest ih =>
      obtain ⟨first, others⟩ := List.forall_mem_cons.mp each
      rw [rejection_skeletons_cons, nodesOfAll, List.findSome?_append, first, ih others]

section Lists

variable {schema : Option ρ} {limit depth : Nat} (shallow : ¬ limit < depth + 1)
include shallow

theorem fault_operation {name : String} {operator : Operator} (known : Operator.ofName? name = some operator)
    (operands : List Json) : fault? schema limit ⟨depth, .array (.string name :: operands)⟩ =
      if operator.form.admits operands.length then none else some (.arityMismatch operator operands.length) := by
  have noCast : cast? (.string name :: operands) = none := by simp [cast?, known]
  have arity : arityFault? (.string name :: operands) =
      if operator.form.admits operands.length then none else some (.arityMismatch operator operands.length) := by
    simp [arityFault?, known]
  simp only [fault?, listFaults, shallow, if_false, emptyFault?, headFault?, arity, castArityFault?, castNameFault?,
    castPayloadFault?, noCast, bind, Option.bind, List.findSome?_cons, List.findSome?_nil, id]
  by_cases admitted : operator.form.admits operands.length = true <;> simp [admitted]

theorem fault_cast {name : String} (unknown : Operator.ofName? name = none) (arguments : List Json) :
    fault? schema limit ⟨depth, .array (.string name :: arguments)⟩ = rejection? (castValue schema name arguments) := by
  rw [rejection_castValue unknown]
  simp [fault?, listFaults, shallow, emptyFault?, headFault?, arityFault?, unknown]

theorem fault_head {head : Json} (rest : List Json) (notString : ∀ name, head ≠ .string name) :
    fault? schema limit ⟨depth, .array (head :: rest)⟩ = some (.headNotString head) := by
  have found : headFault? (head :: rest) = some (.headNotString head) := by
    cases head with
    | string name => exact absurd rfl (notString name)
    | null | bool | number | array | object => rfl
  simp [fault?, listFaults, shallow, emptyFault?, found]

end Lists

/-! ## Kinds of faults -/

/-- What can be wrong with a node, and with nothing but the node. -/
inductive Faulty (limit : Nat) (node : Node) : CompileError → Prop where
  | tooDeep : limit < node.depth + node.value.nesting → Faulty limit node (.tooDeep limit)
  | object {found : Json} : Faulty limit node (.unexpectedObject found)
  | empty : Faulty limit node .emptyList
  | head {found : Json} : Faulty limit node (.headNotString found)
  | arity {operator : Operator} {found : Nat} : Faulty limit node (.arityMismatch operator found)
  | castArity {field : String} {found : Nat} : Faulty limit node (.castArityMismatch field found)
  | castPayload {field typeName : String} {reason : Schema.DecodeError} :
      Faulty limit node (.castDecodeFailure field typeName reason)
  | path {error : CompileError} : Schema.Unresolved error → Faulty limit node error

theorem rejection_eq_some {α : Type} {result : Except CompileError α} {error : CompileError} :
    rejection? result = some error ↔ result = .error error := by
  cases result <;> simp [rejection?]

theorem faulty_of_castValue {schema : Option ρ} {limit : Nat} {node : Node} {name : String} {arguments : List Json}
    {error : CompileError} (rejected : castValue schema name arguments = .error error) : Faulty limit node error := by
  have casting := castValue_casting schema name arguments
  rw [rejected] at casting
  cases casting with
  | arity _ => exact .castArity
  | unresolved known => exact .path (Schema.resolve_resolving schema name _ known)
  | refused _ _ => exact .castPayload

theorem faulty_of_fault {schema : Option ρ} {limit : Nat} {node : Node} {error : CompileError}
    (fault : fault? schema limit node = some error) : Faulty limit node error := by
  obtain ⟨depth, value⟩ := node
  cases value with
  | null | bool value | number value => cases fault
  | object members =>
      cases fault
      exact .object
  | string name => exact .path (Schema.resolve_resolving schema name _ (rejection_eq_some.mp fault))
  | array items =>
      by_cases deep : limit < depth + 1
      · obtain rfl : .tooDeep limit = error := by simpa [fault?, listFaults, deep] using fault
        refine .tooDeep ?_
        simp only [Json.nesting]
        omega
      · cases items using list_cases with
        | empty =>
            obtain rfl : .emptyList = error := by simpa [fault?, listFaults, deep, emptyFault?] using fault
            exact .empty
        | operation name operator operands known =>
            rw [fault_operation deep known] at fault
            split at fault
            · cases fault
            · cases fault
              exact .arity
        | cast name arguments unknown =>
            rw [fault_cast deep unknown] at fault
            exact faulty_of_castValue (rejection_eq_some.mp fault)
        | other head rest notString =>
            rw [fault_head deep rest notString] at fault
            cases fault
            exact .head

private theorem skeleton_head {schema : Option ρ} {limit depth : Nat} (shallow : ¬ limit < depth + 1) {head : Json}
    (rest : List Json) (notString : ∀ name, head ≠ .string name) :
    skeleton schema limit depth (.array (head :: rest)) = .error (.headNotString head) := by
  cases head with
  | string name => exact absurd rfl (notString name)
  | null | bool | number | array | object => simp [skeleton, shallow]

/-- The rejection of a skeleton is the fault of the first node that has one. -/
theorem rejection_skeleton (schema : Option ρ) (limit depth : Nat) (node : Json) :
    rejection? (skeleton schema limit depth node) = (nodes depth node).findSome? (fault? schema limit) := by
  -- Operands stand one list deeper, so the depth is general.
  induction node generalizing depth with
  | null => rfl
  | bool value => rfl
  | number value => rfl
  | object members => rfl
  | string name =>
      simp only [nodes, fault?, List.findSome?_cons, List.findSome?_nil, skeleton]
      cases resolve schema name <;> rfl
  | array items ih =>
      rw [nodes, List.findSome?_cons]
      by_cases deep : limit < depth + 1
      · unfold skeleton
        simp [deep, fault?, listFaults, rejection?]
      · cases items using list_cases with
        | empty => simp [skeleton, fault?, listFaults, deep, emptyFault?, rejection?]
        | operation name operator operands known =>
            have below : rejection? (skeletons schema limit (depth + 1) operands) =
                (nodesOfAll (depth + 1) operands).findSome? (fault? schema limit) :=
              rejection_skeletons fun operand member => ih operand (.tail _ member) (depth + 1)
            rw [fault_operation deep known]
            simp only [skeleton, deep, if_false, operandNodes, known, Option.isSome_some, if_true, ← below]
            by_cases admitted : operator.form.admits operands.length = true
            · simp only [admitted, if_true]
              cases skeletons schema limit (depth + 1) operands <;> rfl
            · simp only [admitted]
              rfl
        | cast name arguments unknown =>
            rw [fault_cast deep unknown]
            simp only [skeleton, deep, if_false, operandNodes, unknown]
            cases castValue schema name arguments <;> rfl
        | other head rest notString =>
            rw [fault_head deep rest notString, skeleton_head deep rest notString]
            rfl

theorem exists_fault_of_rejected {schema : Option ρ} {limit depth : Nat} {node : Json} {error : CompileError}
    (rejected : skeleton schema limit depth node = .error error) :
    ∃ part ∈ nodes depth node, fault? schema limit part = some error := by
  have first := rejection_skeleton schema limit depth node
  rw [rejected, rejection?] at first
  exact List.exists_of_findSome?_eq_some first.symm

theorem rejection_compile (expr : Expr ρ) (node : Json) (backend : Backend) :
    rejection? ((expr.withValue node).compile backend) =
      (nodes 0 node).findSome? (fault? expr.schema expr.limits.depthLimit) := by
  rw [compile_withValue, ← rejection_skeleton]
  cases skeleton expr.schema expr.limits.depthLimit 0 node <;> rfl

/-- A value is accepted iff none of its nodes is at fault, and is else rejected for the fault of the first node that
is. -/
theorem compile_first_fault (expr : Expr ρ) (node : Json) (backend : Backend) :
    ((∃ compiled, (expr.withValue node).compile backend = .ok compiled) ↔
      ∀ part ∈ nodes 0 node, fault? expr.schema expr.limits.depthLimit part = none) ∧
    ∀ error, (expr.withValue node).compile backend = .error error ↔
      (nodes 0 node).findSome? (fault? expr.schema expr.limits.depthLimit) = some error := by
  rw [← List.findSome?_eq_none_iff, ← rejection_compile expr node backend]
  cases (expr.withValue node).compile backend with
  | ok compiled => simp [rejection?]
  | error reason => simp [rejection?]

end FilterSql.Expr
