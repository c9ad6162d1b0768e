import FilterSql.Ordering
import FilterSql.Proofs.Failure

/-!
# Parsing directives

Directives are read one after the other, and reading puts nothing in place. All orderings are replaced at the end or,
if anything fails before, none.
-/

set_option autoImplicit false

namespace FilterSql.Orders

open Schema (RecordType)

variable {ρ α β : Type} {orders changed left : Orders ρ}

/-! ## What leaves the orderings -/

/-- The parsing comes to the result and leaves the orderings as they are, whether it fails or not. -/
def Leaves (parsing : Parsing ρ α) (orders : Orders ρ) : Except CompileError α → Prop
  | .ok value => parsing orders = .ok value orders
  | .error error => parsing orders = .error error orders

theorem leaves_pure (value : α) (orders : Orders ρ) : Leaves (pure value) orders (.ok value) :=
  rfl

theorem Leaves.bind {first : Parsing ρ α} {next : α → Parsing ρ β} {result : Except CompileError α}
    {results : α → Except CompileError β} (leaves : Leaves first orders result)
    (continues : ∀ value, Leaves (next value) orders (results value)) :
    Leaves (first >>= next) orders (result >>= results) := by
  cases result with
  | error error => exact run_bind_error leaves
  | ok value =>
      have goesOn : (first >>= next) orders = next value orders := run_bind_ok leaves
      unfold Leaves at continues ⊢
      rw [goesOn]
      exact continues value

/-- What leaves the orderings for each item leaves them for all items together. -/
theorem leaves_mapM {step : α → Parsing ρ β} {result : α → Except CompileError β}
    (each : ∀ item, Leaves (step item) orders (result item)) (items : List α) :
    Leaves (items.mapM step) orders (items.mapM result) := by
  induction items with
  | nil => exact leaves_pure [] orders
  | cons item items ih =>
      rw [List.mapM_cons, List.mapM_cons]
      exact (each item).bind fun _ => ih.bind fun _ => leaves_pure _ orders

/-! ## Replacing all or nothing -/

variable [RecordType ρ] {directives : List String} {items : List Order} {error : CompileError}

theorem readOrder_leaves (directive : String) (orders : Orders ρ) :
    Leaves (readOrder directive) orders (Order.parse orders.schema directive) := by
  have goesOn : readOrder directive orders =
      (ofExcept (Order.parse orders.schema directive) : Parsing ρ Order) orders := by
    unfold readOrder
    exact run_bind_ok rfl
  cases known : Order.parse orders.schema directive with
  | ok order | error error =>
      unfold Leaves
      rw [goesOn, known]
      rfl

theorem readAll_leaves (directives : List String) (orders : Orders ρ) :
    Leaves (directives.mapM readOrder) orders (directives.mapM (Order.parse orders.schema)) :=
  leaves_mapM (readOrder_leaves · orders) directives

theorem replace_beyond (beyond : orders.maxOrderings < directives.length) :
    replace directives orders = .error (.tooManyOrderings directives.length orders.maxOrderings) orders := by
  change (if _ then _ else _ : Parsing ρ Unit) orders = _
  rw [if_pos beyond]
  rfl

theorem replace_within (within : directives.length ≤ orders.maxOrderings) :
    replace directives orders = (do
      let items ← directives.mapM readOrder
      modify fun orders => { orders with items } : Parsing ρ Unit) orders := by
  change (if _ then _ else _ : Parsing ρ Unit) orders = _
  rw [if_neg (Nat.not_lt.mpr within)]

theorem replace_ok (within : directives.length ≤ orders.maxOrderings)
    (read : directives.mapM (Order.parse orders.schema) = .ok items) :
    replace directives orders = .ok () { orders with items } := by
  have leaves := readAll_leaves directives orders
  rw [read] at leaves
  rw [replace_within within, run_bind_ok leaves]
  rfl

theorem replace_error (within : directives.length ≤ orders.maxOrderings)
    (failed : directives.mapM (Order.parse orders.schema) = .error error) :
    replace directives orders = .error error orders := by
  have leaves := readAll_leaves directives orders
  rw [failed] at leaves
  rw [replace_within within, run_bind_error leaves]

/-- Replacing orderings does one of these three things. -/
inductive Replacing (orders : Orders ρ) (directives : List String) :
    EStateM.Result CompileError (Orders ρ) Unit → Prop where
  | beyond : orders.maxOrderings < directives.length →
      Replacing orders directives (.error (.tooManyOrderings directives.length orders.maxOrderings) orders)
  | failed {error : CompileError} : directives.length ≤ orders.maxOrderings →
      directives.mapM (Order.parse orders.schema) = .error error → Replacing orders directives (.error error orders)
  | done {items : List Order} : directives.length ≤ orders.maxOrderings →
      directives.mapM (Order.parse orders.schema) = .ok items →
      Replacing orders directives (.ok () { orders with items })

theorem replace_cases (directives : List String) (orders : Orders ρ) :
    Replacing orders directives (replace directives orders) := by
  by_cases within : directives.length ≤ orders.maxOrderings
  · cases read : directives.mapM (Order.parse orders.schema) with
    | error error =>
        rw [replace_error within read]
        exact .failed within read
    | ok items =>
        rw [replace_ok within read]
        exact .done within read
  · rw [replace_beyond (Nat.lt_of_not_le within)]
    exact .beyond (Nat.lt_of_not_le within)

theorem replace_ok_iff :
    replace directives orders = .ok () changed ↔
      directives.length ≤ orders.maxOrderings ∧
        ∃ items,
          List.Forall₂ (fun directive order => Order.parse orders.schema directive = .ok order) directives items ∧
          changed = { orders with items } := by
  constructor
  · intro accepted
    have replacing := replace_cases directives orders
    rw [accepted] at replacing
    cases replacing with
    | done within read => exact ⟨within, _, mapM_ok_iff.mp read, rfl⟩
  · intro ⟨within, items, read, same⟩
    rw [same]
    exact replace_ok within (mapM_ok_iff.mpr read)

/-- Replacing that fails leaves the orderings. -/
theorem left_of_replace_error (failed : replace directives orders = .error error left) : left = orders := by
  have replacing := replace_cases directives orders
  rw [failed] at replacing
  cases replacing with
  | beyond _ => rfl
  | failed _ _ => rfl

/-- Of the directives, the first that fails alone decides. -/
theorem replace_error_iff (within : directives.length ≤ orders.maxOrderings) :
    replace directives orders = .error error orders ↔
      ∃ front directive back, directives = front ++ directive :: back ∧
        (∀ earlier ∈ front, ∃ order, Order.parse orders.schema earlier = .ok order) ∧
          Order.parse orders.schema directive = .error error := by
  rw [← mapM_error_iff]
  constructor
  · intro rejected
    have replacing := replace_cases directives orders
    rw [rejected] at replacing
    cases replacing with
    | beyond beyond => exact absurd within (Nat.not_le.mpr beyond)
    | failed _ failed => exact failed
  · exact replace_error within

theorem replaceJson_ok {text : String} (read : Json.readAll readDirectives text = .ok directives) :
    replaceJson text orders = replace directives orders := by
  unfold replaceJson
  rw [read]
  exact run_bind_ok rfl

theorem replaceJson_error {text : String} {fault : Json.ParseError}
    (failed : Json.readAll readDirectives text = .error fault) :
    replaceJson text orders = .error (.notJson fault) orders := by
  unfold replaceJson
  rw [failed]
  exact run_bind_error rfl

/-! ## The outcome alone -/

theorem parse_beyond (beyond : orders.maxOrderings < directives.length) :
    orders.parse directives = .error (.tooManyOrderings directives.length orders.maxOrderings) := by
  rw [parse, Parsing.outcome, replace_beyond beyond]

theorem parse_within (within : directives.length ≤ orders.maxOrderings) :
    orders.parse directives = (directives.mapM (Order.parse orders.schema)).map fun items => { orders with items } := by
  cases read : directives.mapM (Order.parse orders.schema) with
  | error error =>
      rw [parse, Parsing.outcome, replace_error within read]
      rfl
  | ok items =>
      rw [parse, Parsing.outcome, replace_ok within read]
      rfl

end FilterSql.Orders
