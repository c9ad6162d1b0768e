import FilterSql.Expr.Basic
import FilterSql.Proofs.Expr.Skeleton
import FilterSql.Proofs.Json.Induction

/-!
# Elaboration

Which skeleton an expression has, or why it has none, is decided without any page. Writing an expression adds the
fragment of its skeleton.
-/

set_option autoImplicit false

namespace FilterSql

open Schema (RecordType resolve)
open Sql (FieldPath Fragment Page Value Writing)
open Sql.Writing

/-! ## Fragments of skeletons -/

/-- The literals that an operator writes around and between the fragments of its operands. -/
def Operator.arrange (operator : Operator) (operands : List Fragment) : Fragment :=
  match operator.form, operands with
  | .leading, [operand] => [.literal "(", .literal operator.name] ++ operand ++ [.literal ")"]
  | .trailing, [operand] => [.literal "("] ++ operand ++ [.literal operator.name, .literal ")"]
  | .joining, first :: rest =>
    [.literal "("] ++ first ++ rest.flatMap (fun operand => .literal operator.name :: operand) ++ [.literal ")"]
  | .membership, [value, array] =>
    [.literal "("] ++ value ++ [.literal "=", .literal "any("] ++ array ++ [.literal ")", .literal ")"]
  | .range, [value, lower, upper] =>
    [.literal "("] ++ value ++ [.literal "between"] ++ lower ++ [.literal "and"] ++ upper ++ [.literal ")"]
  | _, operands => operands.flatten

namespace Skeleton

def fragment : Skeleton Value → Fragment :=
  fold (fun held => [.argument held]) (fun path => [.literal path.text]) Operator.arrange

@[simp] theorem fragment_value (held : Value) : (value held).fragment = [.argument held] := rfl

@[simp] theorem fragment_column (path : FieldPath) :
    (column path : Skeleton Value).fragment = [.literal path.text] := rfl

@[simp] theorem fragment_operation (operator : Operator) (operands : List (Skeleton Value)) :
    (operation operator operands).fragment = operator.arrange (operands.map fragment) := by
  simp [fragment, fold, foldAll_eq_map]

end Skeleton

private theorem arguments_joined (operator : Operator) (fragments : List Fragment) :
    Fragment.arguments (fragments.flatMap (.literal operator.name :: ·)) = fragments.flatMap Fragment.arguments := by
  induction fragments with
  | nil => rfl
  | cons fragment rest ih => simp [Fragment.arguments, ih]

private theorem arguments_flatten (fragments : List Fragment) :
    Fragment.arguments fragments.flatten = fragments.flatMap Fragment.arguments := by
  induction fragments with
  | nil => rfl
  | cons fragment rest ih => simp [ih]

theorem Operator.arguments_arrange (operator : Operator) (operands : List Fragment) :
    Fragment.arguments (operator.arrange operands) = operands.flatMap Fragment.arguments := by
  unfold Operator.arrange
  split <;> simp [Fragment.arguments, arguments_joined, arguments_flatten]

namespace Skeleton

theorem arguments_fragment (skeleton : Skeleton Value) : skeleton.fragment.arguments = skeleton.values := by
  induction skeleton with
  | value held => rfl
  | column path => rfl
  | operation operator operands ih =>
      simp only [fragment_operation, Operator.arguments_arrange, values_operation, List.flatMap_map]
      rw [List.flatMap_def, List.flatMap_def, List.map_congr_left ih]

/-- Every operator stands with operands that it takes. -/
inductive Admitted {α : Type} : Skeleton α → Prop where
  | value {held : α} : Admitted (.value held)
  | column {path : FieldPath} : Admitted (.column path)
  | operation {operator : Operator} {operands : List (Skeleton α)} :
      operator.Takes operands → (∀ operand ∈ operands, Admitted operand) → Admitted (.operation operator operands)

theorem Admitted.bare {α : Type} {skeleton : Skeleton α} (admitted : skeleton.Admitted) : skeleton.bare.Admitted := by
  induction admitted with
  | value => exact .value
  | column => exact .column
  | operation takes _ ih =>
      rw [bare_operation]
      exact .operation (takes.map _) (by simpa using ih)

end Skeleton

/-! ## Casts -/

namespace Expr

variable {ρ : Type} [RecordType ρ]

/-- Casting arguments to the field at the end of a path does one of these four things. -/
inductive Casting (schema : Option ρ) (name : String) : List Json → Except CompileError Value → Prop where
  | arity {arguments : List Json} : arguments.length ≠ 1 →
      Casting schema name arguments (.error (.castArityMismatch name arguments.length))
  | unresolved {payload : Json} {error : CompileError} : resolve schema name = .error error →
      Casting schema name [payload] (.error error)
  | refused {payload : Json} {resolved : Schema.Resolved ρ} {reason : Schema.DecodeError} :
      resolve schema name = .ok resolved → resolved.field.decode payload = .error reason →
      Casting schema name [payload] (.error (.castDecodeFailure name resolved.field.typeName reason))
  | decoded {payload : Json} {resolved : Schema.Resolved ρ} {value : Value} :
      resolve schema name = .ok resolved → resolved.field.decode payload = .ok value →
      Casting schema name [payload] (.ok value)

theorem castValue_casting (schema : Option ρ) (name : String) (arguments : List Json) :
    Casting schema name arguments (castValue schema name arguments) := by
  match arguments with
  | [] => exact .arity (by simp)
  | first :: second :: rest => exact .arity (by simp)
  | [payload] =>
      unfold castValue
      cases known : resolve schema name with
      | error error => exact .unresolved known
      | ok resolved =>
          change Casting schema name [payload] ((resolved.field.decode payload).mapError _)
          cases taken : resolved.field.decode payload with
          | error reason => exact .refused known taken
          | ok value => exact .decoded known taken

/-! ## Skeletons of expressions -/

mutual

/-- The skeleton of an expression that stands inside `depth` lists, at most `limit` of which may be open. -/
def skeleton (schema : Option ρ) (limit depth : Nat) : Json → Except CompileError (Skeleton Value)
  | .object members => .error (.unexpectedObject (.object members))
  | .string name => do
    let resolved ← resolve schema name
    .ok (.column resolved.path)
  | .array items =>
    if limit < depth + 1 then .error (.tooDeep limit)
    else
      match items with
      | [] => .error .emptyList
      | .string name :: arguments =>
        match Operator.ofName? name with
        | some operator =>
          if operator.form.admits arguments.length then do
            let operands ← skeletons schema limit (depth + 1) arguments
            .ok (.operation operator operands)
          else .error (.arityMismatch operator arguments.length)
        | none => do
          let value ← castValue schema name arguments
          .ok (.value value)
      | head :: _ => .error (.headNotString head)
  | scalar => .ok (.value (.ofLiteral scalar))

def skeletons (schema : Option ρ) (limit depth : Nat) : List Json → Except CompileError (List (Skeleton Value))
  | [] => .ok []
  | node :: rest => do
    let first ← skeleton schema limit depth node
    let others ← skeletons schema limit depth rest
    .ok (first :: others)

end

theorem skeletons_cons (schema : Option ρ) (limit depth : Nat) (node : Json) (rest : List Json) :
    skeletons schema limit depth (node :: rest) = (do
      let first ← skeleton schema limit depth node
      let others ← skeletons schema limit depth rest
      .ok (first :: others)) :=
  rfl

theorem skeletons_ok {schema : Option ρ} {limit depth : Nat} {nodes : List Json} {found : List (Skeleton Value)}
    (accepted : skeletons schema limit depth nodes = .ok found) :
    List.Forall₂ (fun node part => skeleton schema limit depth node = .ok part) nodes found := by
  induction nodes generalizing found with
  | nil =>
      cases accepted
      exact .nil
  | cons node rest ih =>
      rw [skeletons_cons] at accepted
      obtain ⟨head, first, accepted⟩ := ok_of_bind accepted
      obtain ⟨tail, others, accepted⟩ := ok_of_bind accepted
      cases accepted
      exact .cons first (ih others)

private theorem forall₂_imp_mem {α β : Type} {related other : α → β → Prop} {lefts : List α} {rights : List β}
    (each : List.Forall₂ related lefts rights)
    (step : ∀ left ∈ lefts, ∀ right, related left right → other left right) : List.Forall₂ other lefts rights := by
  induction each with
  | nil => exact .nil
  | cons head _ ih =>
      obtain ⟨first, others⟩ := List.forall_mem_cons.mp step
      exact .cons (first _ head) (ih others)

inductive Bound : Json → Prop where
  | null : Bound .null
  | bool {value : Bool} : Bound (.bool value)
  | number {value : Json.Number} : Bound (.number value)

/-- What holds of every leaf, and of an operation whenever it holds of its operands, holds of every node with its
skeleton. -/
theorem skeleton_induct {schema : Option ρ} {limit : Nat} {motive : Json → Skeleton Value → Prop}
    (scalar : ∀ node, Bound node → motive node (.value (.ofLiteral node)))
    (reference : ∀ name resolved, resolve schema name = .ok resolved →
      motive (.string name) (.column resolved.path))
    (cast : ∀ name payload value, Operator.ofName? name = none → castValue schema name [payload] = .ok value →
      motive (.array [.string name, payload]) (.value value))
    (operation : ∀ operator nodes parts, operator.Takes nodes → List.Forall₂ motive nodes parts →
      motive (.array (.string (Operator.name operator) :: nodes)) (.operation operator parts))
    {depth : Nat} {node : Json} {found : Skeleton Value} (accepted : skeleton schema limit depth node = .ok found) :
    motive node found := by
  induction node generalizing depth found with
  | null =>
      cases accepted
      exact scalar _ .null
  | bool value =>
      cases accepted
      exact scalar _ .bool
  | number value =>
      cases accepted
      exact scalar _ .number
  | string name =>
      unfold skeleton at accepted
      obtain ⟨resolved, known, accepted⟩ := ok_of_bind accepted
      cases accepted
      exact reference name resolved known
  | object members => cases accepted
  | array items ih =>
      unfold skeleton at accepted
      by_cases deep : limit < depth + 1
      · simp [deep] at accepted
      · simp only [deep, ↓reduceIte] at accepted
        match items, ih with
        | [], _ => cases accepted
        | .string name :: nodes, ih =>
            cases known : Operator.ofName? name with
            | none =>
                simp only [known] at accepted
                obtain ⟨value, taken, accepted⟩ := ok_of_bind accepted
                cases accepted
                have casting := castValue_casting schema name nodes
                rw [taken] at casting
                cases casting with
                | decoded _ _ => exact cast name _ value known taken
            | some operator =>
                simp only [known] at accepted
                split at accepted
                next admitted =>
                    obtain ⟨parts, each, accepted⟩ := ok_of_bind accepted
                    cases accepted
                    have holds : List.Forall₂ motive nodes parts :=
                      forall₂_imp_mem (skeletons_ok each) fun node member part accepted =>
                        ih node (by simp [member]) accepted
                    rw [Operator.eq_name_of_ofName? known]
                    exact operation operator nodes parts (Operator.takes_of_admits admitted) holds
                next => cases accepted
        | .null :: _, _ | .bool _ :: _, _ | .number _ :: _, _ | .array _ :: _, _ | .object _ :: _, _ =>
            cases accepted

theorem admitted_of_skeleton {schema : Option ρ} {limit depth : Nat} {node : Json} {found : Skeleton Value}
    (accepted : skeleton schema limit depth node = .ok found) : found.Admitted := by
  refine skeleton_induct (motive := fun _ found => found.Admitted) ?_ ?_ ?_ ?_ accepted
  · exact fun _ _ => .value
  · exact fun _ _ _ => .column
  · exact fun _ _ _ _ _ => .value
  · intro operator nodes parts takes each
    refine .operation (takes.of_forall₂ each) ?_
    clear takes
    induction each with
    | nil => simp
    | cons head _ ih => exact List.forall_mem_cons.mpr ⟨head, ih⟩

/-! ## Writing adds the fragment of the skeleton -/

section Operations

variable {π : Type} [Page π] {schema : Option ρ} {limit depth : Nat} {operator : Operator}

/-- What is known of the operands when an operation is looked at. -/
def Elaborated (π : Type) [Page π] (schema : Option ρ) (limit depth : Nat) (node : Json) : Prop :=
  Adds (decode schema limit depth node : Writing π CompileError Unit) (do
    let found ← skeleton schema limit depth node
    .ok found.fragment)

theorem decodeJoined_adds {operands : List Json}
    (each : ∀ operand ∈ operands, Elaborated π schema limit depth operand) :
    Adds (decodeJoined schema limit depth operator operands : Writing π CompileError Unit) (do
      let found ← skeletons schema limit depth operands
      .ok ((found.map Skeleton.fragment).flatMap (.literal operator.name :: ·))) := by
  induction operands with
  | nil => exact adds_nothing
  | cons operand rest ih =>
      obtain ⟨first, others⟩ := List.forall_mem_cons.mp each
      refine ((adds_literal operator.name).andThen (first.andThen (ih others))).of_eq ?_
      simp only [skeletons]
      cases skeleton schema limit depth operand with
      | error error => rfl
      | ok head =>
          cases skeletons schema limit depth rest with
          | error error => rfl
          | ok tail => simp [bind, Except.bind]

/-- The skeletons of the operands decide on an operation with a number of operands that fits. -/
def Arranged (π : Type) [Page π] (schema : Option ρ) (limit depth : Nat) (operator : Operator) (operands : List Json) :
    Prop :=
  Adds (decodeOperation schema limit depth operator operator.form operands : Writing π CompileError Unit) (do
    let found ← skeletons schema limit depth operands
    .ok (operator.arrange (found.map Skeleton.fragment)))

private theorem arranged_leading (form : operator.form = .leading) {operand : Json}
    (inner : Elaborated π schema limit depth operand) : Arranged π schema limit depth operator [operand] := by
  rw [Arranged, form]
  refine ((adds_literal "(").andThen ((adds_literal operator.name).andThen
    (inner.andThen (adds_literal ")")))).of_eq ?_
  simp only [skeletons]
  cases skeleton schema limit depth operand with
  | error error => rfl
  | ok found => simp [bind, Except.bind, Operator.arrange, form]

private theorem arranged_trailing (form : operator.form = .trailing) {operand : Json}
    (inner : Elaborated π schema limit depth operand) : Arranged π schema limit depth operator [operand] := by
  rw [Arranged, form]
  refine ((adds_literal "(").andThen (inner.andThen ((adds_literal operator.name).andThen
    (adds_literal ")")))).of_eq ?_
  simp only [skeletons]
  cases skeleton schema limit depth operand with
  | error error => rfl
  | ok found => simp [bind, Except.bind, Operator.arrange, form]

private theorem arranged_joining (form : operator.form = .joining) {first second : Json} {rest : List Json}
    (head : Elaborated π schema limit depth first)
    (tail : ∀ operand ∈ second :: rest, Elaborated π schema limit depth operand) :
    Arranged π schema limit depth operator (first :: second :: rest) := by
  rw [Arranged, form]
  refine ((adds_literal "(").andThen (head.andThen ((decodeJoined_adds tail).andThen
    (adds_literal ")")))).of_eq ?_
  rw [skeletons_cons schema limit depth first (second :: rest)]
  cases skeleton schema limit depth first with
  | error error => rfl
  | ok found =>
      cases skeletons schema limit depth (second :: rest) with
      | error error => rfl
      | ok others => simp [bind, Except.bind, Operator.arrange, form]

private theorem arranged_membership (form : operator.form = .membership) {value array : Json}
    (left : Elaborated π schema limit depth value) (right : Elaborated π schema limit depth array) :
    Arranged π schema limit depth operator [value, array] := by
  rw [Arranged, form]
  refine ((adds_literal "(").andThen (left.andThen ((adds_literal "=").andThen ((adds_literal "any(").andThen
    (right.andThen ((adds_literal ")").andThen (adds_literal ")"))))))).of_eq ?_
  simp only [skeletons]
  cases skeleton schema limit depth value with
  | error error => rfl
  | ok found =>
      cases skeleton schema limit depth array with
      | error error => rfl
      | ok held => simp [bind, Except.bind, Operator.arrange, form]

private theorem arranged_range (form : operator.form = .range) {value lower upper : Json}
    (middle : Elaborated π schema limit depth value) (least : Elaborated π schema limit depth lower)
    (greatest : Elaborated π schema limit depth upper) :
    Arranged π schema limit depth operator [value, lower, upper] := by
  rw [Arranged, form]
  refine ((adds_literal "(").andThen (middle.andThen ((adds_literal "between").andThen
    (least.andThen ((adds_literal "and").andThen (greatest.andThen (adds_literal ")"))))))).of_eq ?_
  simp only [skeletons]
  cases skeleton schema limit depth value with
  | error error => rfl
  | ok found =>
      cases skeleton schema limit depth lower with
      | error error => rfl
      | ok start =>
          cases skeleton schema limit depth upper with
          | error error => rfl
          | ok stop => simp [bind, Except.bind, Operator.arrange, form]

theorem decodeOperation_of_not_admitted {operands : List Json}
    (rejected : ¬ operator.form.admits operands.length = true) :
    (decodeOperation schema limit depth operator operator.form operands : Writing π CompileError Unit) =
      throw (.arityMismatch operator operands.length) := by
  generalize operator.form = form at rejected ⊢
  unfold decodeOperation
  split <;> first | rfl | simp [Form.admits] at rejected

theorem decodeOperation_adds {operands : List Json}
    (each : ∀ operand ∈ operands, Elaborated π schema limit depth operand) :
    Adds (decodeOperation schema limit depth operator operator.form operands : Writing π CompileError Unit)
      (if operator.form.admits operands.length then do
        let found ← skeletons schema limit depth operands
        .ok (operator.arrange (found.map Skeleton.fragment))
      else .error (.arityMismatch operator operands.length)) := by
  by_cases admitted : operator.form.admits operands.length = true
  · rw [if_pos admitted]
    cases Operator.takes_of_admits admitted with
    | leading form => exact arranged_leading form (each _ (by simp))
    | trailing form => exact arranged_trailing form (each _ (by simp))
    | joining form => exact arranged_joining form (each _ (by simp)) (List.forall_mem_cons.mp each).2
    | membership form => exact arranged_membership form (each _ (by simp)) (each _ (by simp))
    | range form => exact arranged_range form (each _ (by simp)) (each _ (by simp)) (each _ (by simp))
  · rw [if_neg admitted, decodeOperation_of_not_admitted admitted]
    exact adds_throw _

end Operations

/-- An expression adds the fragment of its skeleton to any page, or is rejected as its skeleton is. -/
theorem decode_elaborated (π : Type) [Page π] (schema : Option ρ) (limit depth : Nat) (node : Json) :
    Elaborated π schema limit depth node := by
  -- The items of a list stand one list deeper, so the depth is general.
  induction node generalizing depth with
  | null => exact adds_argument _
  | bool value => exact adds_argument _
  | number value => exact adds_argument _
  | string name =>
      unfold Elaborated decode decodeReference skeleton
      refine (Adds.ofExcept fun (resolved : Schema.Resolved ρ) => adds_literal resolved.path.text).of_eq ?_
      cases resolve schema name with
      | error error => rfl
      | ok resolved => rfl
  | object members => exact adds_throw _
  | array items ih =>
      unfold Elaborated decode skeleton
      by_cases deep : limit < depth + 1
      · simp only [deep, ↓reduceIte]
        exact adds_throw _
      · simp only [deep, ↓reduceIte]
        match items, ih with
        | [], _ => exact adds_throw _
        | .string name :: arguments, ih =>
            cases known : Operator.ofName? name with
            | none =>
                simp only [known]
                refine (Adds.ofExcept fun value => adds_argument value).of_eq ?_
                cases castValue schema name arguments with
                | error error => rfl
                | ok value => rfl
            | some operator =>
                have each : ∀ operand ∈ arguments, Elaborated π schema limit (depth + 1) operand :=
                  fun operand member => ih operand (by simp [member]) (depth + 1)
                simp only [known]
                refine (decodeOperation_adds each).of_eq ?_
                split
                · cases skeletons schema limit (depth + 1) arguments with
                  | error error => rfl
                  | ok found => simp [bind, Except.bind]
                · rfl
        | .null :: _, _ | .bool _ :: _, _ | .number _ :: _, _ | .array _ :: _, _ | .object _ :: _, _ =>
            exact adds_throw _

end Expr

end FilterSql
