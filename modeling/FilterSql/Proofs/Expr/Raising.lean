import FilterSql.Proofs.Expr.Compile
import FilterSql.Proofs.Expr.Faults
import FilterSql.Proofs.Ordering.Parsing
import FilterSql.Schema.Loaded

/-!
# Raising limits

Limits reject, and do nothing else: what is accepted or rejected within some limits is so, with the same outcome, within
all limits that are at least as high, unless it is rejected for a limit.
-/

set_option autoImplicit false

namespace FilterSql

open Schema (RecordType)

namespace Limits

structure AtMost (lower higher : Limits) : Prop where
  depth : lower.maxDepth ≤ higher.maxDepth
  bytes : lower.maxInputBytes ≤ higher.maxInputBytes
  orderings : lower.maxOrderings ≤ higher.maxOrderings

instance : LE Limits := ⟨AtMost⟩

theorem depthLimit_le {lower higher : Limits} (raised : lower ≤ higher) : lower.depthLimit ≤ higher.depthLimit :=
  Nat.le_min.mpr ⟨(Nat.min_le_left _ _).trans raised.depth, Nat.min_le_right _ _⟩

end Limits

namespace Expr

/-! ## Outcomes -/

/-- The rejections of an expression for a limit. -/
inductive OverLimit : CompileError → Prop where
  | depth {limit : Nat} : OverLimit (.tooDeep limit)
  | bytes {size limit : Nat} : OverLimit (.inputTooLarge size limit)

/-- The second outcome is the first, unless the first is a rejection for a limit. -/
def Stays {α : Type} (first second : Except CompileError α) : Prop :=
  (∀ error, first = .error error → ¬ OverLimit error) → second = first

theorem stays_self {α : Type} (outcome : Except CompileError α) : Stays outcome outcome :=
  fun _ => rfl

theorem stays_of_overLimit {α : Type} {error : CompileError} (limited : OverLimit error)
    (second : Except CompileError α) : Stays (.error error) second :=
  fun within => absurd limited (within error rfl)

theorem Stays.bind {α β : Type} {first second : Except CompileError α} {next after : α → Except CompileError β}
    (start : Stays first second) (rest : ∀ value, Stays (next value) (after value)) :
    Stays (first >>= next) (second >>= after) := by
  intro within
  cases first with
  | error error =>
      have same : second = .error error := start fun other rejected => within other (rejected ▸ rfl)
      rw [same]
      rfl
  | ok value =>
      have same : second = .ok value := start (fun _ rejected => nomatch rejected)
      rw [same]
      exact rest value within

theorem Stays.map {α β : Type} {first second : Except CompileError α} (start : Stays first second) (f : α → β) :
    Stays (first.map f) (second.map f) := by
  intro within
  cases first with
  | error error =>
      have same : second = .error error := start fun _ rejected => within _ (congrArg (Except.map f) rejected)
      rw [same]
  | ok value =>
      have same : second = .ok value := start (fun _ rejected => nomatch rejected)
      rw [same]

/-! ## Texts -/

theorem scan_raised {lower higher : Nat} (raised : lower ≤ higher) {mode : ScanMode} {depth : Nat} {text : List Char}
    (within : scan lower mode depth text = true) : scan higher mode depth text = true := by
  induction text generalizing mode depth with
  | nil => simp [scan]
  | cons c rest ih =>
      cases mode with
      | escaped => exact ih within
      | inString =>
          unfold scan at within ⊢
          by_cases escaping : c = '\\'
          · rw [if_pos escaping] at within ⊢
            exact ih within
          · rw [if_neg escaping] at within ⊢
            by_cases closing : c = '"'
            · rw [if_pos closing] at within ⊢
              exact ih within
            · rw [if_neg closing] at within ⊢
              exact ih within
      | outside =>
          unfold scan at within ⊢
          by_cases quote : c = '"'
          · rw [if_pos quote] at within ⊢
            exact ih within
          · rw [if_neg quote] at within ⊢
            by_cases opening : c = '[' ∨ c = '\x7b'
            · rw [if_pos opening, Bool.and_eq_true, decide_eq_true_iff] at within ⊢
              exact ⟨within.1.trans_le raised, ih within.2⟩
            · rw [if_neg opening] at within ⊢
              by_cases closing : c = ']' ∨ c = '\x7d'
              · rw [if_pos closing] at within ⊢
                exact ih within
              · rw [if_neg closing] at within ⊢
                exact ih within

theorem checkNesting_stays {lower higher : Nat} (raised : lower ≤ higher) (text : String) :
    Stays (checkNesting text lower) (checkNesting text higher) := by
  unfold checkNesting
  split
  next within =>
    rw [if_pos (scan_raised raised within)]
    exact stays_self _
  next => exact stays_of_overLimit .depth _

theorem readText_stays {lower higher : Limits} (raised : lower ≤ higher) (isBoolean : Bool) (text : String) :
    Stays (read.readText isBoolean lower text) (read.readText isBoolean higher text) := by
  unfold read.readText
  split
  next => exact stays_of_overLimit .bytes _
  next small =>
    have smaller : ¬ higher.maxInputBytes < text.utf8ByteSize := by
      have bytes := raised.bytes
      omega
    rw [if_neg smaller]
    split
    · exact stays_self _
    · exact (checkNesting_stays (Limits.depthLimit_le raised) text).bind fun _ => stays_self _

theorem read_stays {lower higher : Limits} (raised : lower ≤ higher) (source : Option Source) (isBoolean : Bool) :
    Stays (read source isBoolean lower) (read source isBoolean higher) := by
  rcases source with _ | text | value
  · exact readText_stays raised isBoolean ""
  · exact readText_stays raised isBoolean text
  · exact stays_self _

/-! ## Values -/

variable {ρ : Type}

def withLimits (expr : Expr ρ) (limits : Limits) : Expr ρ :=
  { expr with limits }

variable [RecordType ρ]

theorem skeletons_stay {schema : Option ρ} {lower higher depth : Nat} {nodes : List Json}
    (each : ∀ node ∈ nodes, Stays (skeleton schema lower depth node) (skeleton schema higher depth node)) :
    Stays (skeletons schema lower depth nodes) (skeletons schema higher depth nodes) := by
  induction nodes with
  | nil => exact stays_self _
  | cons node rest ih =>
      obtain ⟨first, others⟩ := List.forall_mem_cons.mp each
      rw [skeletons_cons, skeletons_cons]
      exact first.bind fun _ => (ih others).bind fun _ => stays_self _

theorem skeleton_stays (schema : Option ρ) {lower higher : Nat} (raised : lower ≤ higher) (depth : Nat) (node : Json) :
    Stays (skeleton schema lower depth node) (skeleton schema higher depth node) := by
  -- Operands stand one list deeper, so the depth is general.
  induction node generalizing depth with
  | null | bool | number | string | object => exact stays_self _
  | array items ih =>
      by_cases deep : lower < depth + 1
      · have rejected : skeleton schema lower depth (.array items) = .error (.tooDeep lower) := by
          unfold skeleton
          exact if_pos deep
        rw [rejected]
        exact stays_of_overLimit .depth _
      · have shallow : ¬ higher < depth + 1 := by omega
        cases items using list_cases with
        | empty =>
            simp only [skeleton, deep, shallow, if_false]
            exact stays_self _
        | cast name arguments unknown =>
            simp only [skeleton, deep, shallow, unknown, if_false]
            exact stays_self _
        | operation name operator operands known =>
            have below : Stays (skeletons schema lower (depth + 1) operands)
                (skeletons schema higher (depth + 1) operands) :=
              skeletons_stay fun operand member => ih operand (.tail _ member) (depth + 1)
            simp only [skeleton, deep, shallow, known, if_false]
            split
            · exact below.bind fun _ => stays_self _
            · exact stays_self _
        | other head rest notString =>
            cases head with
            | string name => exact absurd rfl (notString name)
            | null | bool | number | array | object =>
                simp only [skeleton, deep, shallow, if_false]
                exact stays_self _

/-! ## Compilations -/

theorem fragment_stays (expr : Expr ρ) {lower higher : Limits} (raised : lower ≤ higher) :
    Stays (expr.withLimits lower).fragment (expr.withLimits higher).fragment := by
  refine (read_stays raised expr.source expr.isBoolean).bind fun node? => ?_
  cases node? with
  | none => exact stays_self _
  | some node =>
      exact (skeleton_stays expr.schema (Limits.depthLimit_le raised) 0 node).bind fun _ => stays_self _

theorem compile_stays (expr : Expr ρ) {lower higher : Limits} (raised : lower ≤ higher) (backend : Backend) :
    Stays ((expr.withLimits lower).compile backend) ((expr.withLimits higher).compile backend) := by
  rw [compile_eq, compile_eq]
  exact (expr.fragment_stays raised).map _

end Expr

namespace Orders

variable {ρ : Type} [RecordType ρ]

theorem parse_stays (orders : Orders ρ) {lower higher : Limits} (raised : lower ≤ higher) {directives : List String}
    (within : directives.length ≤ lower.maxOrderings) :
    (orders.withLimits higher).parse directives =
      ((orders.withLimits lower).parse directives).map (·.withLimits higher) := by
  have stillWithin : directives.length ≤ (orders.withLimits higher).maxOrderings := within.trans raised.orderings
  have admitted : directives.length ≤ (orders.withLimits lower).maxOrderings := within
  rw [parse_within stillWithin, parse_within admitted]
  change (directives.mapM (Order.parse orders.schema)).map _ =
    ((directives.mapM (Order.parse orders.schema)).map _).map _
  cases directives.mapM (Order.parse orders.schema) <;> rfl

end Orders

variable {ρ : Type} [RecordType ρ]

/-- Raising limits changes no outcome that is not a rejection for a limit. -/
theorem raised_limits {lower higher : Limits} (raised : lower ≤ higher) :
    (∀ (expr : Expr ρ) (backend : Backend),
      (∀ compiled, (expr.withLimits lower).compile backend = .ok compiled →
        (expr.withLimits higher).compile backend = .ok compiled) ∧
      ∀ error, (expr.withLimits lower).compile backend = .error error →
        error.code ≠ "TOO_DEEP" → error.code ≠ "INPUT_TOO_LARGE" →
        (expr.withLimits higher).compile backend = .error error) ∧
    ∀ (orders : Orders ρ) (directives : List String),
      (∀ error, (orders.withLimits lower).parse directives = .error error → error.code ≠ "TOO_MANY_ORDERINGS") →
      (orders.withLimits higher).parse directives =
        ((orders.withLimits lower).parse directives).map (·.withLimits higher) := by
  constructor
  · intro expr backend
    have stays := expr.compile_stays raised backend
    constructor
    · intro compiled accepted
      rw [accepted] at stays
      exact stays fun _ rejected => nomatch rejected
    · intro error rejected notDepth notBytes
      rw [rejected] at stays
      apply stays
      intro _ same limited
      cases same
      cases limited with
      | depth => exact notDepth rfl
      | bytes => exact notBytes rfl
  · intro orders directives kept
    apply orders.parse_stays raised
    by_contra tooMany
    have rejected : (orders.withLimits lower).parse directives =
        .error (.tooManyOrderings directives.length lower.maxOrderings) :=
      Orders.parse_beyond (Nat.lt_of_not_le tooMany)
    exact kept _ rejected rfl

def tightLimits : Limits where
  maxDepth := 1
  maxInputBytes := 15
  maxOrderings := 1

def users : Schema :=
  .mk "User" [.scalar "id" "id" .integer false false]

/-- As many bytes as the tight limits allow, and as many lists. -/
def oneUser : Expr Schema where
  source := some (.text "[\"=\", \"id\", 42]")
  schema := some users

def namedUser : Expr Schema where
  source := some (.text "[\"=\", \"by\", 42]")
  schema := some users

theorem raised_limits_users :
    tightLimits ≤ ({} : Limits) ∧
    (∃ compiled, (oneUser.withLimits tightLimits).compile .postgres = .ok compiled ∧
      (oneUser.withLimits {}).compile .postgres = .ok compiled ∧ compiled.text = "(\"id\" = $1)") ∧
    (namedUser.withLimits {}).compile .postgres = .error (.unknownField "by" "User") ∧
    (((Orders.empty (some users)).withLimits {}).parse ["id desc"]).map Orders.text = .ok "order by \"id\" desc" := by
  have raised : tightLimits ≤ ({} : Limits) := ⟨by decide, by decide, by decide⟩
  have spelt : ((oneUser.withLimits tightLimits).compile .postgres).toOption.map (·.text) = some "(\"id\" = $1)" := by
    decide +kernel
  obtain ⟨compiled, accepted, written⟩ := Expr.compile_of_text spelt
  have rejected : (namedUser.withLimits tightLimits).compile .postgres = .error (.unknownField "by" "User") :=
    Expr.rejection_eq_some.mp (by decide +kernel)
  have ordered : (((Orders.empty (some users)).withLimits tightLimits).parse ["id desc"]).map Orders.text =
      .ok "order by \"id\" desc" := by decide +kernel
  obtain ⟨expressions, orderings⟩ := raised_limits (ρ := Schema) raised
  refine ⟨raised, ⟨compiled, accepted, (expressions oneUser .postgres).1 compiled accepted, written⟩, ?_, ?_⟩
  · exact (expressions namedUser .postgres).2 _ rejected (by decide) (by decide)
  · cases parsed : ((Orders.empty (some users)).withLimits tightLimits).parse ["id desc"] with
    | error error => simp [parsed, Except.map] at ordered
    | ok orders =>
        rw [parsed] at ordered
        rw [orderings _ _ (by simp [parsed]), parsed]
        exact ordered

end FilterSql
