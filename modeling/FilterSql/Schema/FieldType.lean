import FilterSql.Calendar.Reading
import FilterSql.Json.Printer
import FilterSql.Sql.Value

/-!
# Field types

The types a field may have, and the decoding of a JSON literal as a value of a type.
-/

set_option autoImplicit false

namespace FilterSql.Schema

open Numeric (Double)
open Sql (Value)

/-- Why a literal is no value of a type, or no literal of a record. -/
inductive DecodeError where
  | wrongType (found : Json) (expected : String)
  | wrongValue (found : Json) (expected : String)
  | outOfRange (value : Int)
  | moment (error : Calendar.ReadError)
  | uuid (error : Uuid.ReadError)
  | noLiterals
  | memberTakesNoLiterals (name : String)
  | unknownMember (name record : String)
  | notAnObject (record : String) (found : Json)
  | nestedTooDeeply
  | custom (message : String)
  deriving DecidableEq, Repr

def DecodeError.message : DecodeError → String
  | wrongType found expected => "invalid type: " ++ found.description ++ ", expected " ++ expected
  | wrongValue found expected => "invalid value: " ++ found.description ++ ", expected " ++ expected
  | outOfRange value => "integer " ++ toString value ++ " out of range for i64"
  | moment error => error.message
  | uuid error => error.message
  | noLiterals => "field does not accept literals"
  | memberTakesNoLiterals name => "field " ++ Text.quoted name ++ " does not accept literals"
  | unknownMember name record => "unknown field " ++ Text.quoted name ++ " in " ++ record
  | notAnObject record found => "expected object for " ++ record ++ ", found " ++ found.compact
  | nestedTooDeeply => "record literal nested too deeply"
  | custom message => message

/-- The integer types, by width. The last of each kind has the width of a word, which is 64 bits. -/
inductive IntegerType where
  | int8
  | int16
  | int32
  | int64
  | intWord
  | nat8
  | nat16
  | nat32
  | nat64
  | natWord
  deriving DecidableEq, Repr

namespace IntegerType

def name : IntegerType → String
  | int8 => "i8"
  | int16 => "i16"
  | int32 => "i32"
  | int64 => "i64"
  | intWord => "isize"
  | nat8 => "u8"
  | nat16 => "u16"
  | nat32 => "u32"
  | nat64 => "u64"
  | natWord => "usize"

def least : IntegerType → Int
  | int8 => -128
  | int16 => -32768
  | int32 => -2147483648
  | int64 | intWord => -9223372036854775808
  | _ => 0

def greatest : IntegerType → Int
  | int8 => 127
  | int16 => 32767
  | int32 => 2147483647
  | int64 | intWord => 9223372036854775807
  | nat8 => 255
  | nat16 => 65535
  | nat32 => 4294967295
  | nat64 | natWord => 18446744073709551615

end IntegerType

inductive ScalarType where
  | text
  | boolean
  | integer (type : IntegerType)
  | single
  | double
  | timestamp
  | localTimestamp
  | date
  | uuid
  | json
  deriving DecidableEq, Repr

namespace ScalarType

def expectation : ScalarType → String
  | text => "a string"
  | boolean => "a boolean"
  | integer type => type.name
  | single => "f32"
  | double => "f64"
  | timestamp => "an RFC 3339 formatted date and time string"
  | localTimestamp => "a formatted date and time string"
  | date => "a formatted date string"
  | uuid => "a formatted UUID string"
  | json => "any value"

/-- An integer of the given type that can be bound as one. -/
def decodeInteger (type : IntegerType) (value : Int) : Except DecodeError Value :=
  if type.least ≤ value ∧ value ≤ type.greatest then
    if Sql.leastInt ≤ value ∧ value ≤ Sql.greatestInt then .ok (.int value) else .error (.outOfRange value)
  else .error (.wrongValue (.number (.integer value)) type.name)

/-- The value of a literal of a scalar type. Integers must be written without fraction and exponent. -/
def decode (type : ScalarType) (literal : Json) : Except DecodeError Value :=
  match type, literal with
  | text, .string value => .ok (.text value)
  | boolean, .bool value => .ok (.bool value)
  | integer type, .number (.integer value) => decodeInteger type value
  | single, .number (.integer value) => .ok (.float (Double.singleOfInt value))
  | single, .number (.float value) => .ok (.float value.toSingle)
  | double, .number value => .ok (.float value.toDouble)
  | timestamp, .string value => (Calendar.Timestamp.parse value).map .timestamp |>.mapError .moment
  | localTimestamp, .string value => (Calendar.Timestamp.parseNaive value).map .timestamp |>.mapError .moment
  | date, .string value => (Calendar.Date.parse value).map .date |>.mapError .moment
  | uuid, .string value => (Uuid.parse value).map .uuid |>.mapError .uuid
  | json, value => .ok (.json value)
  | type, value => .error (.wrongType value type.expectation)

end ScalarType

/-- A field's type: a scalar, or one that allows null, holds a list, or is kept behind a reference. A record may also
bring types of its own, each with its decoder. -/
inductive FieldType where
  | scalar (type : ScalarType)
  | option (type : FieldType)
  | list (type : FieldType)
  | boxed (type : FieldType)
  | custom (decoder : Json → Except String Value)

def FieldType.decode : FieldType → Json → Except DecodeError Value
  | scalar type, literal => type.decode literal
  | option type, literal => if literal.isNull then .ok .null else type.decode literal
  | list type, .array items => do
    let values ← items.mapM type.decode
    .ok (.array values)
  | list _, literal => .error (.wrongType literal "a sequence")
  | boxed type, literal => type.decode literal
  | custom decoder, literal => (decoder literal).mapError .custom

end FilterSql.Schema
