import FilterSql.Schema.Document
import FilterSql.Schema.Record

/-!
# Loaded schemas

Record types described by a schema document that makes sense: every field is a scalar or a record, only records are
embedded, and the other fields of a record have names of their own.
-/

set_option autoImplicit false

namespace FilterSql

/-- A field of a loaded record. `ρ` stands for the loaded records. -/
inductive Schema.Member (ρ : Type) where
  | scalar (name column : String) (kind : Schema.ScalarKind) (nullable array : Bool)
  | record (name column : String) (embedded : Bool) (type : ρ)
  deriving Repr

inductive Schema where
  | mk (name : String) (members : List (Schema.Member Schema))
  deriving Repr

namespace Schema

def name : Schema → String
  | mk name _ => name

def members : Schema → List (Member Schema)
  | mk _ members => members

def scalarLabel (kind : ScalarKind) (nullable array : Bool) : String :=
  kind.name ++ (if array then "[]" else "") ++ (if nullable then "?" else "")

def Member.field : Member Schema → Field Schema
  | scalar name column kind nullable array =>
    { name, column
      typeName := scalarLabel kind nullable array
      embedded := false
      type := some (kind.fieldType nullable array)
      nested := none }
  | record name column embedded type =>
    { name, column, embedded
      typeName := type.name
      type := none
      nested := some type }

instance : RecordType Schema where
  typeName := name
  fields schema := schema.members.map Member.field

inductive Flaw where
  | typeAndRecord
  | neitherTypeNorRecord
  | embeddedScalar
  | unnamed
  | duplicateName
  deriving DecidableEq, Repr

def Flaw.message : Flaw → String
  | typeAndRecord => "\"type\" and \"record\" are exclusive"
  | neitherTypeNorRecord => "one of \"type\" or \"record\" is required"
  | embeddedScalar => "only record fields can be embedded"
  | unnamed => "name is required"
  | duplicateName => "duplicate field name"

/-- The field of a document that makes no sense, in the record that holds it. -/
structure Invalid where
  record : String
  field : String
  flaw : Flaw
  deriving DecidableEq, Repr

def Invalid.message (invalid : Invalid) : String :=
  "Invalid field " ++ Text.quoted invalid.field ++ " in " ++ invalid.record ++ ": " ++ invalid.flaw.message

/-- What is wrong with a field's name, where `taken` are the names before it. Embedded fields need no name. -/
def nameFlaw? (taken : List String) {ρ : Type} (field : FieldDocument ρ) : Option Flaw :=
  if field.embed then none
  else if field.name = "" then some .unnamed
  else if taken.contains field.name then some .duplicateName
  else none

def takenAfter (taken : List String) {ρ : Type} (field : FieldDocument ρ) : List String :=
  if field.embed then taken else field.name :: taken

mutual

/-- The record type of a document, or its first field that makes no sense. The fields of a record come before the name
of the field that holds it. -/
def validate : RecordDocument → Except Invalid Schema
  | .mk name fields => do
    let members ← validateFields name [] fields
    .ok (mk name members)

def validateFields (record : String) (taken : List String) :
    List (FieldDocument RecordDocument) → Except Invalid (List (Member Schema))
  | [] => .ok []
  | ⟨name, column, kind, nested, nullable, array, embed⟩ :: rest => do
    let field : FieldDocument RecordDocument := ⟨name, column, kind, nested, nullable, array, embed⟩
    let member : Member Schema ←
      match kind, nested with
      | some _, some _ => .error ⟨record, name, .typeAndRecord⟩
      | none, none => .error ⟨record, name, .neitherTypeNorRecord⟩
      | some kind, none =>
        if embed then .error ⟨record, name, .embeddedScalar⟩
        else .ok (.scalar name column kind nullable array)
      | none, some nested => do
        let type ← validate nested
        .ok (.record name column embed type)
    match nameFlaw? taken field with
    | some flaw => .error ⟨record, name, flaw⟩
    | none => do
      let members ← validateFields record (takenAfter taken field) rest
      .ok (member :: members)

end

inductive LoadError where
  | notRead (error : Json.ParseError)
  | invalid (field : Invalid)
  deriving DecidableEq, Repr

def LoadError.message : LoadError → String
  | notRead error => "Schema parse error: " ++ error.message
  | invalid field => field.message

def load (text : String) : Except LoadError Schema := do
  let document ← (RecordDocument.parse text).mapError .notRead
  (validate document).mapError .invalid

end Schema

end FilterSql
