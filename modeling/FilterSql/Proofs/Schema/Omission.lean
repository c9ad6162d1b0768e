import FilterSql.Proofs.Json.Induction
import FilterSql.Schema.RecordLiteral
import FilterSql.Schema.Resolve

/-!
# Record types without one name

Record types from which all fields of one name are left out, wherever they stand, but for embedded fields, whose names
are never looked up. What does not name those fields does not tell the record types apart.
-/

set_option autoImplicit false

namespace FilterSql

/-! ## Names in a value -/

mutual

/-- All that may name a field in a value: the words of its strings between points, and the keys of its objects. -/
def Json.names : Json → List String
  | .string text => Schema.pathSegments text
  | .array items => namesOfItems items
  | .object members => namesOfMembers members
  | _ => []

def Json.namesOfItems : List Json → List String
  | [] => []
  | item :: rest => Json.names item ++ namesOfItems rest

def Json.namesOfMembers : List (String × Json) → List String
  | [] => []
  | (key, value) :: rest => key :: (Json.names value ++ namesOfMembers rest)

end

theorem Json.mem_namesOfItems {name : String} {items : List Json} :
    name ∈ namesOfItems items ↔ ∃ item ∈ items, name ∈ item.names := by
  induction items with
  | nil => simp [namesOfItems]
  | cons item rest ih => simp [namesOfItems, ih]

theorem Json.mem_namesOfMembers {name : String} {members : List (String × Json)} :
    name ∈ namesOfMembers members ↔ ∃ member ∈ members, name = member.1 ∨ name ∈ member.2.names := by
  induction members with
  | nil => simp [namesOfMembers]
  | cons member rest ih => simp [namesOfMembers, ih, or_assoc]

namespace Schema

variable {ρ σ : Type}

def Field.map (veil : ρ → σ) (field : Field ρ) : Field σ where
  name := field.name
  column := field.column
  typeName := field.typeName
  embedded := field.embedded
  type := field.type
  nested := field.nested.map veil

def Resolved.map (veil : ρ → σ) (resolved : Resolved ρ) : Resolved σ :=
  ⟨resolved.path, resolved.field.map veil⟩

variable [RecordType ρ] [RecordType σ]

theorem checkItems_congr {left : ρ} {right : σ} {depth : Nat} {items : List Json}
    (each : ∀ item ∈ items, checkLiteral left depth item = checkLiteral right depth item) :
    checkItems left depth items = checkItems right depth items := by
  induction items with
  | nil => simp [checkItems]
  | cons item rest ih =>
      obtain ⟨first, others⟩ := List.forall_mem_cons.mp each
      simp only [checkItems, first, ih others]

/-- What is left of a record type under the veil is all but its fields of one name. -/
structure Omits (name : String) (veil : ρ → σ) : Prop where
  typeName_eq : ∀ record, typeName (veil record) = typeName record
  fields_eq : ∀ record, fields (veil record) =
    ((fields record).filter fun field => field.embedded || field.name != name).map (Field.map veil)

namespace Omits

variable {name : String} {veil : ρ → σ} (omits : Omits name veil)
include omits

/-! ## Looking for another name -/

theorem find_fields {sought : String} (other : sought ≠ name) (record : ρ) :
    (fields (veil record)).find? (fun field => !field.embedded && field.name == sought) =
      ((fields record).find? fun field => !field.embedded && field.name == sought).map (Field.map veil) := by
  rw [omits.fields_eq, List.find?_map, List.find?_filter]
  congr 2
  funext field
  by_cases found : field.name = sought <;> simp [Field.map, found, other]

theorem embeddedRecords_eq (record : ρ) :
    ((fields (veil record)).filter (·.embedded)).filterMap (·.nested) =
      (((fields record).filter (·.embedded)).filterMap (·.nested)).map veil := by
  have kept : (fun field : Field ρ => (field.map veil).embedded && (field.embedded || field.name != name)) =
      (·.embedded) := by
    funext field
    change (field.embedded && (field.embedded || _)) = field.embedded
    cases field.embedded <;> rfl
  rw [omits.fields_eq, List.filter_map, List.filter_filter, List.filterMap_map, List.map_filterMap]
  simp only [Function.comp_def, kept]
  rfl

theorem findFieldWithin_eq {sought : String} (other : sought ≠ name) (depth : Nat) (record : ρ) :
    findFieldWithin depth (veil record) sought = (findFieldWithin depth record sought).map (Field.map veil) := by
  -- Every embedding that is entered leaves one less, in a record of its own.
  induction depth generalizing record with
  | zero =>
      unfold findFieldWithin
      rw [omits.find_fields other]
      cases (fields record).find? fun field => !field.embedded && field.name == sought <;> rfl
  | succ inner ih =>
      unfold findFieldWithin
      rw [omits.find_fields other, omits.embeddedRecords_eq]
      cases (fields record).find? fun field => !field.embedded && field.name == sought with
      | some field => rfl
      | none =>
          simp only [Option.map_none, List.findSome?_map, Function.comp_def, ih, List.map_findSome?]

theorem findField_eq {sought : String} (other : sought ≠ name) (record : ρ) :
    findField (veil record) sought = (findField record sought).map (Field.map veil) :=
  omits.findFieldWithin_eq other maxEmbedding record

/-! ## Resolution -/

theorem storedField_eq {sought : String} (other : sought ≠ name) (path : String) (record : ρ) :
    storedField path (veil record) sought = (storedField path record sought).map (Field.map veil) := by
  unfold storedField
  rw [omits.findField_eq other, omits.typeName_eq]
  cases findField record sought with
  | none => rfl
  | some field => by_cases stored : field.column = "" <;> simp [Field.map, stored, Except.map]

theorem followSegments_eq {segments : List String} (unnamed : name ∉ segments) (path : String) (field : Field ρ) :
    followSegments path (field.map veil) segments =
      (followSegments path field segments).map fun (columns, last) => (columns, last.map veil) := by
  induction segments generalizing field with
  | nil => rfl
  | cons sought rest ih =>
      have other : sought ≠ name := (List.ne_of_not_mem_cons unnamed).symm
      unfold followSegments
      cases behind : field.nested with
      | none => simp [Field.map, behind, Except.map]
      | some record =>
          have veiled : (field.map veil).nested = some (veil record) := by simp [Field.map, behind]
          rw [veiled]
          dsimp only
          rw [omits.storedField_eq other]
          cases storedField path record sought with
          | error error => rfl
          | ok next =>
              simp only [Except.map, bind, Except.bind, ih (List.not_mem_of_not_mem_cons unnamed)]
              cases followSegments path next rest <;> rfl

theorem resolve_eq (schema : Option ρ) {path : String} (unnamed : name ∉ pathSegments path) :
    resolve (schema.map veil) path = (resolve schema path).map (Resolved.map veil) := by
  unfold resolve
  by_cases dotted : isDottedPath path = true
  · cases schema with
    | none => simp [dotted, Except.map]
    | some record =>
        simp only [dotted, Bool.not_true, Bool.false_eq_true, if_false, Option.map]
        cases segments : pathSegments path with
        | nil => rfl
        | cons first rest =>
            rw [segments] at unnamed
            have other : first ≠ name := (List.ne_of_not_mem_cons unnamed).symm
            have following : name ∉ rest := List.not_mem_of_not_mem_cons unnamed
            simp only [omits.storedField_eq other]
            cases storedField path record first with
            | error error => rfl
            | ok field =>
                simp only [Except.map, bind, Except.bind, omits.followSegments_eq following]
                cases followSegments path field rest with
                | error error => rfl
                | ok found =>
                    dsimp only
                    cases Sql.FieldPath.ofSegments found.1 <;> rfl
  · simp [dotted, Except.map]

/-! ## Record literals -/

theorem checkMembers_eq {members : List (String × Json)} (keys : ∀ member ∈ members, member.1 ≠ name)
    (each : ∀ member ∈ members, ∀ (record : ρ) depth,
      checkLiteral (veil record) depth member.2 = checkLiteral record depth member.2)
    (record : ρ) (depth : Nat) : checkMembers (veil record) depth members = checkMembers record depth members := by
  induction members with
  | nil => simp [checkMembers]
  | cons member rest ih =>
      obtain ⟨key, value⟩ := member
      obtain ⟨other, others⟩ := List.forall_mem_cons.mp keys
      obtain ⟨first, following⟩ := List.forall_mem_cons.mp each
      simp only [checkMembers, omits.findField_eq other, omits.typeName_eq, ih others following]
      cases findField record key with
      | none => rfl
      | some field =>
          cases type : field.type with
          | some type => simp [Field.map, type]
          | none => cases nested : field.nested <;> simp [Field.map, type, nested, first]

theorem checkLiteral_eq {literal : Json} (unnamed : name ∉ literal.names) (record : ρ) (depth : Nat) :
    checkLiteral (veil record) depth literal = checkLiteral record depth literal := by
  induction literal generalizing record depth with
  | null | bool value | number value | string text => simp [checkLiteral, omits.typeName_eq]
  | array items ih =>
      have each : ∀ item ∈ items, name ∉ item.names := fun item member named =>
        unnamed (Json.mem_namesOfItems.mpr ⟨item, member, named⟩)
      unfold checkLiteral
      simp only [checkItems_congr fun item member => ih item member (each item member) record (depth + 1)]
  | object members ih =>
      have each : ∀ member ∈ members, ¬ (name = member.1 ∨ name ∈ member.2.names) := fun entry member named =>
        unnamed (Json.mem_namesOfMembers.mpr ⟨entry, member, named⟩)
      unfold checkLiteral
      simp only [omits.checkMembers_eq (fun entry member same => each entry member (.inl same.symm))
        fun entry member => ih entry member fun named => each entry member (.inr named)]

theorem decode_eq (field : Field ρ) {literal : Json} (unnamed : name ∉ literal.names) :
    (field.map veil).decode literal = field.decode literal := by
  unfold Field.decode decodeRecord
  cases type : field.type with
  | some type => simp [Field.map, type]
  | none => cases nested : field.nested <;> simp [Field.map, type, nested, omits.checkLiteral_eq unnamed]

end Omits

end Schema

end FilterSql
