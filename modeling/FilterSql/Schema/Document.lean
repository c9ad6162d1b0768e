import FilterSql.Json.Shape
import FilterSql.Schema.FieldType

/-!
# Schema documents

Schema documents as they are written in JSON: records with fields, each of which says what it is. Whether what they
say makes sense is another question.
-/

set_option autoImplicit false

namespace FilterSql.Schema

open Json (Reader)

inductive ScalarKind where
  | text
  | integer
  | float
  | boolean
  | timestamp
  | date
  | uuid
  | json
  deriving DecidableEq, Repr

namespace ScalarKind

def all : List ScalarKind := [text, integer, float, boolean, timestamp, date, uuid, json]

def name : ScalarKind → String
  | text => "text"
  | integer => "integer"
  | float => "float"
  | boolean => "boolean"
  | timestamp => "timestamp"
  | date => "date"
  | uuid => "uuid"
  | json => "json"

def scalarType : ScalarKind → ScalarType
  | text => .text
  | integer => .integer .int64
  | float => .double
  | boolean => .boolean
  | timestamp => .timestamp
  | date => .date
  | uuid => .uuid
  | json => .json

/-- The type of a field of this kind. A list allows null itself, its elements do not. -/
def fieldType (kind : ScalarKind) (nullable array : Bool) : FieldType :=
  let single := FieldType.scalar kind.scalarType
  let held := if array then .list single else single
  if nullable then .option held else held

def choices : List (String × ScalarKind) :=
  all.map fun kind => (kind.name, kind)

end ScalarKind

/-- What a document says of a field. `ρ` stands for what it says of records. -/
structure FieldDocument (ρ : Type) where
  name : String
  column : String
  kind : Option ScalarKind
  record : Option ρ
  nullable : Bool
  array : Bool
  embed : Bool
  deriving Repr

inductive RecordDocument where
  | mk (name : String) (fields : List (FieldDocument RecordDocument))
  deriving Repr

namespace FieldDocument

variable {ρ : Type}

structure Partial (ρ : Type) where
  name : Option String
  column : Option String
  kind : Option (Option ScalarKind)
  record : Option (Option ρ)
  nullable : Option Bool
  array : Option Bool
  embed : Option Bool

def Partial.empty : Partial ρ := ⟨none, none, none, none, none, none, none⟩

/-- The field with the members read, every other one being empty or off. -/
def Partial.complete (read : Partial ρ) : FieldDocument ρ :=
  { name := read.name.getD ""
    column := read.column.getD ""
    kind := read.kind.getD none
    record := read.record.getD none
    nullable := read.nullable.getD false
    array := read.array.getD false
    embed := read.embed.getD false }

def memberNames : List String := ["name", "column", "type", "record", "nullable", "array", "embed"]

def readMember (record : Nat → Reader ρ) (depth : Nat) (read : Partial ρ) (key : String) : Reader (Partial ρ) :=
  fun text =>
    match key with
    | "name" => do
      let (value, rest) ← Json.readOnce key read.name Json.readStringValue text
      .ok ({ read with name := some value }, rest)
    | "column" => do
      let (value, rest) ← Json.readOnce key read.column Json.readStringValue text
      .ok ({ read with column := some value }, rest)
    | "type" => do
      let (value, rest) ←
        Json.readOnce key read.kind (Json.readOptional (Json.readVariant ScalarKind.choices depth)) text
      .ok ({ read with kind := some value }, rest)
    | "record" => do
      let (value, rest) ← Json.readOnce key read.record (Json.readOptional (record depth)) text
      .ok ({ read with record := some value }, rest)
    | "nullable" => do
      let (value, rest) ← Json.readOnce key read.nullable Json.readFlag text
      .ok ({ read with nullable := some value }, rest)
    | "array" => do
      let (value, rest) ← Json.readOnce key read.array Json.readFlag text
      .ok ({ read with array := some value }, rest)
    | "embed" => do
      let (value, rest) ← Json.readOnce key read.embed Json.readFlag text
      .ok ({ read with embed := some value }, rest)
    | _ => .error (Json.faultInObject (.unknownField key memberNames) text)

/-- Reads the next element of a list that stands for a record, or takes what stands for an element left out. -/
def readPlace {α : Type} (first : Bool) (value : Reader α) (leftOut : Except Json.Reason α) : Reader α :=
  fun text => do
    let (found, rest) ← Json.nextItem first text
    if found then value rest
    else
      match leftOut with
      | .ok value => .ok (value, rest)
      | .error reason => .error (Json.faultInList reason rest)

/-- Reads a field written as a list of its members in their order. -/
def readPlaces (record : Nat → Reader ρ) (depth : Nat) : Reader (FieldDocument ρ) := fun text => do
  let expected := "struct DynamicField with 7 elements"
  let (name, rest) ← readPlace true Json.readStringValue (.ok "") text
  let (column, rest) ← readPlace false Json.readStringValue (.ok "") rest
  let (kind, rest) ←
    readPlace false (Json.readOptional (Json.readVariant ScalarKind.choices depth))
      (.error (.wrongLength 2 expected)) rest
  let (record, rest) ← readPlace false (Json.readOptional (record depth)) (.error (.wrongLength 3 expected)) rest
  let (nullable, rest) ← readPlace false Json.readFlag (.ok false) rest
  let (array, rest) ← readPlace false Json.readFlag (.ok false) rest
  let (embed, rest) ← readPlace false Json.readFlag (.ok false) rest
  let rest ← Json.closeList rest
  .ok (⟨name, column, kind, record, nullable, array, embed⟩, rest)

def reader (record : Nat → Reader ρ) (depth : Nat) : Reader (FieldDocument ρ) :=
  Json.readFirst fun c rest =>
    if c = '[' then
      match depth with
      | 0 => .error (.upon .nestingLimit (c :: rest))
      | inner + 1 => readPlaces record inner rest
    else if c = '\x7b' then
      match depth with
      | 0 => .error (.upon .nestingLimit (c :: rest))
      | inner + 1 => do
        let (read, rest) ← Json.readObject (readMember record inner) .empty rest
        .ok (read.complete, rest)
    else .error (Json.unexpected "struct DynamicField" c rest)

end FieldDocument

namespace RecordDocument

def name : RecordDocument → String
  | mk name _ => name

def fields : RecordDocument → List (FieldDocument RecordDocument)
  | mk _ fields => fields

structure Partial where
  name : Option String
  fields : Option (List (FieldDocument RecordDocument))

def memberNames : List String := ["name", "fields"]

/-- Reads one member of a record from the text after its key. -/
def readMember (field : Nat → Reader (FieldDocument RecordDocument)) (depth : Nat) (read : Partial) (key : String) :
    Reader Partial := fun text =>
  match key with
  | "name" => do
    let (value, rest) ← Json.readOnce key read.name Json.readStringValue text
    .ok ({ read with name := some value }, rest)
  | "fields" => do
    let (value, rest) ← Json.readOnce key read.fields (Json.readListOf field depth) text
    .ok ({ read with fields := some value }, rest)
  | _ => .error (Json.faultInObject (.unknownField key memberNames) text)

/-- Reads a record written as a list of its members in their order. -/
def readPlaces (field : Nat → Reader (FieldDocument RecordDocument)) (depth : Nat) : Reader RecordDocument :=
  fun text => do
    let (name, rest) ←
      FieldDocument.readPlace true Json.readStringValue
        (.error (.wrongLength 0 "struct DynamicSchema with 2 elements")) text
    let (fields, rest) ← FieldDocument.readPlace false (Json.readListOf field depth) (.ok []) rest
    let rest ← Json.closeList rest
    .ok (mk name fields, rest)

def readerWith (field : Nat → Reader (FieldDocument RecordDocument)) (depth : Nat) : Reader RecordDocument :=
  Json.readFirst fun c rest =>
    if c = '[' then
      match depth with
      | 0 => .error (.upon .nestingLimit (c :: rest))
      | inner + 1 => readPlaces field inner rest
    else if c = '\x7b' then
      match depth with
      | 0 => .error (.upon .nestingLimit (c :: rest))
      | inner + 1 => do
        let (read, rest) ← Json.readObject (readMember field inner) ⟨none, none⟩ rest
        match read.name with
        | some name => .ok (mk name (read.fields.getD []), rest)
        | none => .error (.before (.missingField "name") rest)
    else .error (Json.unexpected "struct DynamicSchema" c rest)

/-- Reads a record whose records nest at most `levels` deep, with at most `depth` lists and objects inside each
other. -/
def reader : (levels : Nat) → (depth : Nat) → Reader RecordDocument
  | 0, _ => fun text => .error (.upon .nestingLimit text)
  | levels + 1, depth => readerWith (FieldDocument.reader (reader levels)) depth

/-- The record that a text describes. Each level of records uses up more than one level of nesting. -/
def parse (text : String) : Except Json.ParseError RecordDocument :=
  Json.readAll (reader (Json.maxNesting + 1) Json.maxNesting) text

end RecordDocument

end FilterSql.Schema
