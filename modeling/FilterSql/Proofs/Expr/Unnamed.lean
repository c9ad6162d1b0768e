import FilterSql.Ordering
import FilterSql.Proofs.Expr.Faults
import FilterSql.Proofs.Ordering.Directive
import FilterSql.Proofs.Ordering.Parsing
import FilterSql.Proofs.Schema.Omission
import FilterSql.Proofs.Sql.Spacing
import FilterSql.Schema.Loaded
import Mathlib.Logic.Relation

/-!
# Fields that nothing names

Record types that differ in fields of one name are the same to all expressions and orderings that do not say it, down to
the message they are rejected with.
-/

set_option autoImplicit false

namespace FilterSql

open Schema (Omits RecordType resolve)

variable {ρ σ : Type}

/-! ## Expressions -/

namespace Expr

/-- All that may name a field in an expression. A text that is not read names nothing. -/
def names (expr : Expr ρ) : List String :=
  match read expr.source expr.isBoolean expr.limits with
  | .ok (some value) => value.names
  | _ => []

def withSchema (expr : Expr ρ) (schema : Option σ) : Expr σ where
  source := expr.source
  schema := schema
  isBoolean := expr.isBoolean
  limits := expr.limits

variable [RecordType ρ] [RecordType σ]

theorem skeletons_congr {left : Option ρ} {right : Option σ} {limit depth : Nat} {nodes : List Json}
    (each : ∀ node ∈ nodes, skeleton left limit depth node = skeleton right limit depth node) :
    skeletons left limit depth nodes = skeletons right limit depth nodes := by
  induction nodes with
  | nil => rfl
  | cons node rest ih =>
      obtain ⟨first, others⟩ := List.forall_mem_cons.mp each
      rw [skeletons_cons, skeletons_cons, first, ih others]

section Veiled

variable {name : String} {veil : ρ → σ} (omits : Omits name veil)
include omits

theorem castValue_veiled (schema : Option ρ) {field : String} {arguments : List Json}
    (unnamed : name ∉ Schema.pathSegments field) (each : ∀ argument ∈ arguments, name ∉ argument.names) :
    castValue (schema.map veil) field arguments = castValue schema field arguments := by
  unfold castValue
  rcases arguments with _ | ⟨payload, _ | ⟨second, rest⟩⟩
  · rfl
  · dsimp only
    rw [omits.resolve_eq schema unnamed]
    cases resolve schema field with
    | error error => rfl
    | ok resolved =>
        simp only [Except.map, Schema.Resolved.map, bind, Except.bind,
          omits.decode_eq resolved.field (each payload List.mem_cons_self)]
        rfl
  · rfl

theorem skeleton_veiled (schema : Option ρ) (limit depth : Nat) {node : Json} (unnamed : name ∉ node.names) :
    skeleton (schema.map veil) limit depth node = skeleton schema limit depth node := by
  -- Only references and casts look at the schema, by names that the node has.
  induction node generalizing depth with
  | null | bool value | number value | object members => rfl
  | string field =>
      unfold skeleton
      rw [omits.resolve_eq schema unnamed]
      cases resolve schema field <;> rfl
  | array items ih =>
      have each : ∀ item ∈ items, name ∉ item.names := fun item member named =>
        unnamed (Json.mem_namesOfItems.mpr ⟨item, member, named⟩)
      cases items using list_cases with
      | empty => simp [skeleton]
      | other head rest notString =>
          cases head with
          | string field => exact absurd rfl (notString field)
          | null | bool | number | array | object => simp [skeleton]
      | cast field arguments unknown =>
          obtain ⟨first, others⟩ := List.forall_mem_cons.mp each
          simp only [skeleton, unknown, castValue_veiled omits schema first others]
      | operation field operator operands known =>
          have same : skeletons (schema.map veil) limit (depth + 1) operands =
              skeletons schema limit (depth + 1) operands :=
            skeletons_congr fun operand member =>
              ih operand (.tail _ member) (depth + 1) (each operand (.tail _ member))
          simp only [skeleton, known, same]

theorem fragment_veiled (expr : Expr ρ) (schema : Option ρ) (unnamed : name ∉ expr.names) :
    (expr.withSchema (schema.map veil)).fragment = (expr.withSchema schema).fragment := by
  unfold names at unnamed
  unfold fragment withSchema
  dsimp only
  split at unnamed
  next value taken => simp only [taken, bind, Except.bind, skeleton_veiled omits schema _ _ unnamed]
  next others =>
    cases taken : read expr.source expr.isBoolean expr.limits with
    | error error => rfl
    | ok found =>
        cases found with
        | none => rfl
        | some value => exact absurd taken (others value)

end Veiled

end Expr

/-! ## Orderings -/

namespace Order

/-- All that may name a field in a directive, which is what stands before its first blank. -/
def names (directive : String) : List String :=
  Schema.pathSegments (String.ofList (directive.toList.takeWhile (!Text.isBlank ·)))

theorem not_isBlank_of_isPathChar {c : Char} (inPath : isPathChar c = true) : Text.isBlank c = false := by
  have kinds : (c.isUpper || c.isLower || c.isDigit || c == '_' || c == '.') = true := inPath
  simp only [Bool.or_eq_true, beq_iff_eq] at kinds
  rcases kinds with (((upper | lower) | digit) | rfl) | rfl
  · have range : 65 ≤ c.val ∧ c.val ≤ 90 := of_decide_eq_true upper
    exact Sql.not_isBlank_of_toNat ⟨Nat.lt_of_lt_of_le (by decide) range.1, Nat.lt_of_le_of_lt range.2 (by decide)⟩
  · have range : 97 ≤ c.val ∧ c.val ≤ 122 := (Bool.and_eq_true_iff.mp lower).imp of_decide_eq_true of_decide_eq_true
    exact Sql.not_isBlank_of_toNat ⟨Nat.lt_of_lt_of_le (by decide) range.1, Nat.lt_of_le_of_lt range.2 (by decide)⟩
  · exact Sql.not_isBlank_of_isDigit digit
  · decide
  · decide

theorem isBlank_of_isGap {c : Char} (gap : isGap c = true) : Text.isBlank c = true := by
  simp only [isGap, Bool.or_eq_true, beq_iff_eq] at gap
  rcases gap with (((rfl | rfl) | rfl) | rfl) | rfl <;> decide

/-- The path of a directive is all that stands before its first blank. -/
theorem names_of_split {directive path : String} {descending : Bool}
    (found : split? directive = some (path, descending)) : names directive = Schema.pathSegments path := by
  obtain ⟨gap, word, reads, _⟩ := split_iff.mp found
  have front : ∀ c ∈ path.toList, (!Text.isBlank c) = true := by
    intro c member
    rw [not_isBlank_of_isPathChar (reads.isPathChar_of_mem c member), Bool.not_false]
  have stop : ∀ c ∈ (gap.toList ++ word.toList).head?, (!Text.isBlank c) = false := by
    intro c head
    rw [isBlank_of_isGap (reads.isGap_of_mem_head c head), Bool.not_true]
  rw [names, reads.toList_eq, (span_append front stop).1, String.ofList_toList]

theorem parse_veiled [RecordType ρ] [RecordType σ] {name : String} {veil : ρ → σ} (omits : Omits name veil)
    (schema : Option ρ) {directive : String} (unnamed : name ∉ names directive) :
    parse (schema.map veil) directive = parse schema directive := by
  unfold parse
  cases found : split? directive with
  | none => rfl
  | some parts =>
      rw [names_of_split found] at unnamed
      simp only [omits.resolve_eq schema unnamed]
      cases resolve schema parts.1 <;> rfl

end Order

/-! ## Schemas -/

namespace Schema

mutual

/-- The schema without its fields of one name, except for embedded ones. -/
def without (name : String) : Schema → Schema
  | mk title members => mk title (withoutAll name members)

def withoutAll (name : String) : List (Member Schema) → List (Member Schema)
  | [] => []
  | .scalar field column kind nullable array :: rest =>
    if field = name then withoutAll name rest else .scalar field column kind nullable array :: withoutAll name rest
  | .record field column embedded type :: rest =>
    if embedded = false ∧ field = name then withoutAll name rest
    else .record field column embedded (without name type) :: withoutAll name rest

end

theorem name_without (name : String) (schema : Schema) : (schema.without name).name = schema.name := by
  cases schema
  rfl

theorem omits_without (name : String) : Omits name (without name) where
  typeName_eq := name_without name
  fields_eq
    | mk title members => by
      change (withoutAll name members).map Member.field =
        ((members.map Member.field).filter _).map (Field.map (without name))
      induction members with
      | nil => rfl
      | cons member rest ih =>
          cases member with
          | scalar field column kind nullable array =>
              by_cases same : field = name <;> simp [withoutAll, Member.field, same, ih, Field.map]
          | record field column embedded type =>
              rw [withoutAll]
              by_cases same : field = name <;> cases embedded <;>
                simp [Member.field, same, ih, Field.map, name_without]

theorem withoutAll_append (name : String) (front back : List (Member Schema)) :
    withoutAll name (front ++ back) = withoutAll name front ++ withoutAll name back := by
  induction front with
  | nil => rfl
  | cons member rest ih => cases member <;> simp only [List.cons_append, withoutAll, ih] <;> split <;> rfl

/-- The second schema has one field more than the first, of the given name and not embedded, anywhere in it. -/
inductive Gains (name : String) : Schema → Schema → Prop where
  | here {title : String} {front back : List (Member Schema)} {member : Member Schema} :
      member.field.embedded = false → member.field.name = name →
      Gains name (mk title (front ++ back)) (mk title (front ++ member :: back))
  | inside {title field column : String} {embedded : Bool} {front back : List (Member Schema)}
      {smaller larger : Schema} :
      Gains name smaller larger →
      Gains name (mk title (front ++ .record field column embedded smaller :: back))
        (mk title (front ++ .record field column embedded larger :: back))

theorem Gains.without_eq {name : String} {smaller larger : Schema} (gains : Gains name smaller larger) :
    smaller.without name = larger.without name := by
  induction gains with
  | @here title front back member plain named =>
      have dropped : withoutAll name (member :: back) = withoutAll name back := by
        cases member with
        | scalar field column kind nullable array => exact if_pos named
        | record field column embedded type => exact if_pos ⟨plain, named⟩
      rw [without, without, withoutAll_append, withoutAll_append, dropped]
  | inside _ ih => simp only [without, withoutAll_append, withoutAll, ih]

theorem without_eq_of_eqvGen {name : String} {before after : Schema}
    (related : Relation.EqvGen (Gains name) before after) : before.without name = after.without name := by
  induction related with
  | rel _ _ gains => exact gains.without_eq
  | refl _ => rfl
  | symm _ _ _ ih => exact ih.symm
  | trans _ _ _ _ _ first second => exact first.trans second

end Schema

/-! ## Schemas that differ in what is not named -/

theorem Expr.compile_without (expr : Expr Schema) (schema : Schema) {name : String} (unnamed : name ∉ expr.names)
    (backend : Backend) :
    (expr.withSchema (some (schema.without name))).compile backend =
      (expr.withSchema (some schema)).compile backend := by
  rw [compile_eq, compile_eq, ← fragment_veiled (Schema.omits_without name) expr (some schema) unnamed, Option.map_some]

namespace Orders

def withSchema (orders : Orders ρ) (schema : Option σ) : Orders σ :=
  ⟨orders.items, schema, orders.maxOrderings⟩

theorem mapM_parse_without (schema : Schema) {name : String} {directives : List String}
    (unnamed : ∀ directive ∈ directives, name ∉ Order.names directive) :
    directives.mapM (Order.parse (some (schema.without name))) = directives.mapM (Order.parse (some schema)) := by
  induction directives with
  | nil => rfl
  | cons directive rest ih =>
      obtain ⟨first, others⟩ := List.forall_mem_cons.mp unnamed
      have same := Order.parse_veiled (Schema.omits_without name) (some schema) first
      rw [Option.map_some] at same
      rw [List.mapM_cons, List.mapM_cons, same, ih others]

theorem parse_without (orders : Orders Schema) (schema : Schema) {name : String} {directives : List String}
    (unnamed : ∀ directive ∈ directives, name ∉ Order.names directive) :
    ((orders.withSchema (some (schema.without name))).parse directives).map (·.items) =
      ((orders.withSchema (some schema)).parse directives).map (·.items) := by
  by_cases within : directives.length ≤ orders.maxOrderings
  · have admitted : ∀ other : Option Schema, directives.length ≤ (orders.withSchema other).maxOrderings :=
      fun _ => within
    rw [parse_within (admitted _), parse_within (admitted _)]
    change ((directives.mapM (Order.parse (some (schema.without name)))).map _).map _ =
      ((directives.mapM (Order.parse (some schema))).map _).map _
    rw [mapM_parse_without schema unnamed]
    cases directives.mapM (Order.parse (some schema)) <;> rfl
  · have tooMany : ∀ other : Option Schema, (orders.withSchema other).maxOrderings < directives.length :=
      fun _ => Nat.lt_of_not_le within
    rw [parse_beyond (tooMany _), parse_beyond (tooMany _)]
    rfl

end Orders

/-- Fields that a client does not name have no say in what it gets. However many fields of one name are added to the
records of a schema or removed from them, an expression and directives that do not name them are compiled, parsed and
rejected as before. -/
theorem outcomes_eq_of_gains {name : String} {before after : Schema}
    (related : Relation.EqvGen (Schema.Gains name) before after) :
    (∀ expr : Expr Schema, name ∉ expr.names → ∀ backend,
      (expr.withSchema (some before)).compile backend = (expr.withSchema (some after)).compile backend) ∧
    ∀ (orders : Orders Schema) (directives : List String),
      (∀ directive ∈ directives, name ∉ Order.names directive) →
      ((orders.withSchema (some before)).parse directives).map (·.items) =
        ((orders.withSchema (some after)).parse directives).map (·.items) := by
  have same := Schema.without_eq_of_eqvGen related
  constructor
  · intro expr unnamed backend
    rw [← expr.compile_without before unnamed, same, expr.compile_without after unnamed]
  · intro orders directives unnamed
    rw [← orders.parse_without before unnamed, same, orders.parse_without after unnamed]

/-- Orders of customers, with room for further fields in each of the records. -/
def shop (order customer audit : List (Schema.Member Schema)) : Schema :=
  .mk "Order" (order ++ [.scalar "id" "id" .integer false false,
    .record "customer" "buyer" false (.mk "Customer" (customer ++ [.scalar "name" "full_name" .text false false])),
    .record "" "" true (.mk "Audit" (audit ++ [.scalar "createdAt" "created_at" .timestamp false false]))])

def secret : Schema.Member Schema :=
  .scalar "secret" "secret" .text true false

/-- Refers to a field of an embedded record, and compares a record with a literal. -/
def shopQuery : Expr Schema where
  source := some (.value (.array [.string "and", .array [.string "is null", .string "createdAt"],
    .array [.string "=", .string "customer", .array [.string "customer", .object [("name", .string "Ann")]]]]))

def shopOrders : Orders Schema :=
  .empty none

theorem shop_gains : Relation.EqvGen (Schema.Gains "secret") (shop [] [] []) (shop [secret] [secret] [secret]) := by
  have order : Schema.Gains "secret" (shop [] [] []) (shop [secret] [] []) :=
    @Schema.Gains.here "secret" "Order" [] _ secret rfl rfl
  have customer : Schema.Gains "secret" (shop [secret] [] []) (shop [secret] [secret] []) :=
    @Schema.Gains.inside "secret" "Order" "customer" "buyer" false
      [secret, .scalar "id" "id" .integer false false] _ _ _
      (@Schema.Gains.here "secret" "Customer" [] _ secret rfl rfl)
  have audit : Schema.Gains "secret" (shop [secret] [secret] []) (shop [secret] [secret] [secret]) :=
    @Schema.Gains.inside "secret" "Order" "" "" true [secret, .scalar "id" "id" .integer false false, _] [] _ _
      (@Schema.Gains.here "secret" "Audit" [] _ secret rfl rfl)
  exact .trans _ _ _ (.rel _ _ order) (.trans _ _ _ (.rel _ _ customer) (.rel _ _ audit))

theorem outcomes_eq_of_gains_secret :
    ((shopQuery.withSchema (some (shop [secret] [secret] [secret]))).compile .postgres).toOption.map (·.text) =
        some "((\"created_at\" is null) and (\"buyer\" = $1))" ∧
      (((shopOrders.withSchema (some (shop [secret] [secret] [secret]))).parse
        ["createdAt desc", "customer.name asc"]).map (·.items)).toOption.map (·.map Order.text) =
        some ["\"created_at\" desc", "(\"buyer\").\"full_name\" asc"] := by
  obtain ⟨compiled, parsed⟩ := outcomes_eq_of_gains shop_gains
  constructor
  · rw [← compiled shopQuery (by decide +kernel)]
    decide +kernel
  · rw [← parsed shopOrders _ (by decide +kernel)]
    decide +kernel

end FilterSql
