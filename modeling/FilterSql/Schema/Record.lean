import FilterSql.Schema.FieldType

/-!
# Record types

What a client may refer to: record types with named fields. Records may hold each other, and even themselves, so a
record type is anything that can tell its fields.
-/

set_option autoImplicit false

namespace FilterSql.Schema

/-- A field of a record type. `ρ` stands for the record types. -/
structure Field (ρ : Type) where
  /-- The name clients use. -/
  name : String
  /-- The storage column. A field with an empty column is not stored. -/
  column : String
  /-- The name of the field's type in messages. -/
  typeName : String
  /-- The fields of an embedded field's record count as fields of the record around it. -/
  embedded : Bool
  /-- The type that a literal cast to the field is decoded as. -/
  type : Option FieldType
  /-- The record type behind the field. -/
  nested : Option ρ

/-- Record types that tell their name and their fields in the order of declaration. -/
class RecordType (ρ : Type) where
  typeName : ρ → String
  fields : ρ → List (Field ρ)

export RecordType (typeName fields)

variable {ρ : Type} [RecordType ρ]

def maxEmbedding : Nat := 32

/-- Finds a field by its name among the direct fields, then within the embedded records in their order, at most
`depth` embeddings deep. The name of an embedded field itself is never found. -/
def findFieldWithin : (depth : Nat) → (record : ρ) → (name : String) → Option (Field ρ)
  | depth, record, name =>
    match (fields record).find? fun field => !field.embedded && field.name == name with
    | some field => some field
    | none =>
      match depth with
      | 0 => none
      | inner + 1 =>
        (((fields record).filter (·.embedded)).filterMap (·.nested)).findSome? fun embedded =>
          findFieldWithin inner embedded name

def findField (record : ρ) (name : String) : Option (Field ρ) :=
  findFieldWithin maxEmbedding record name

end FilterSql.Schema
