import FilterSql.Proofs.Failure
import FilterSql.Proofs.Json.Numeral
import FilterSql.Schema.Document

/-!
# Decoding literals

Which literals a type takes, and which value it makes of them. The decoders of strings, truth values, floating-point
numbers, moments and identifiers are what they are; integers, null, lists and JSON itself are told apart here.
-/

set_option autoImplicit false

namespace FilterSql.Schema

open Sql (Value)

/-! ## Integers -/

namespace IntegerType

def bits : IntegerType → Nat
  | int8 | nat8 => 8
  | int16 | nat16 => 16
  | int32 | nat32 => 32
  | int64 | intWord | nat64 | natWord => 64

def signed : IntegerType → Bool
  | int8 | int16 | int32 | int64 | intWord => true
  | nat8 | nat16 | nat32 | nat64 | natWord => false

/-- The integer has a place among the bit patterns of the type. -/
def Holds (type : IntegerType) (value : Int) : Prop :=
  if type.signed then -(Nat.pow 2 (type.bits - 1) : Nat) ≤ value ∧ value < (Nat.pow 2 (type.bits - 1) : Nat)
  else 0 ≤ value ∧ value < (Nat.pow 2 type.bits : Nat)

theorem holds_iff (type : IntegerType) (value : Int) :
    type.Holds value ↔ type.least ≤ value ∧ value ≤ type.greatest := by
  cases type <;> simp [Holds, signed, bits, least, greatest] <;> omega

theorem int64_holds_iff (value : Int) :
    int64.Holds value ↔ Sql.leastInt ≤ value ∧ value ≤ Sql.greatestInt :=
  holds_iff int64 value

end IntegerType

/-! ## Scalars -/

namespace ScalarType

/-- The value is of the kind that the type stands for. -/
def IsKind : ScalarType → Value → Prop
  | text, .text _ => True
  | boolean, .bool _ => True
  | integer _, .int _ => True
  | single, .float _ | double, .float _ => True
  | timestamp, .timestamp _ | localTimestamp, .timestamp _ => True
  | date, .date _ => True
  | uuid, .uuid _ => True
  | json, .json _ => True
  | _, _ => False

/-- The type takes the literal. -/
def Fits (type : ScalarType) (literal : Json) : Prop :=
  match type with
  | integer type => ∃ value, literal = .number (.integer value) ∧ type.Holds value ∧ IntegerType.int64.Holds value
  | json => True
  | given => ∃ value, given.decode literal = .ok value

/-- The value says of the type what the literal says. -/
def Mirrors (type : ScalarType) (literal : Json) (value : Value) : Prop :=
  match type with
  | integer _ => ∃ number, literal = .number (.integer number) ∧ value = .int number
  | json => value = .json literal
  | given => given.decode literal = .ok value ∧ given.IsKind value

theorem decodeInteger_ok_iff {type : IntegerType} {number : Int} {value : Value} :
    decodeInteger type number = .ok value ↔
      type.Holds number ∧ IntegerType.int64.Holds number ∧ value = .int number := by
  rw [type.holds_iff, IntegerType.int64_holds_iff]
  unfold decodeInteger
  by_cases held : type.least ≤ number ∧ number ≤ type.greatest
  · by_cases bound : Sql.leastInt ≤ number ∧ number ≤ Sql.greatestInt
    · simp [held, bound, eq_comm]
    · simp [held, bound]
  · simp [held]

theorem decode_integer_ok_iff {type : IntegerType} {literal : Json} {value : Value} :
    (integer type).decode literal = .ok value ↔
      ∃ number, literal = .number (.integer number) ∧ type.Holds number ∧ IntegerType.int64.Holds number ∧
        value = .int number := by
  constructor
  · intro decoded
    -- Literals other than integers are no values of the type.
    cases literal with
    | number found =>
        cases found with
        | integer number => exact ⟨number, rfl, decodeInteger_ok_iff.mp decoded⟩
        | float _ => cases decoded
    | null => cases decoded
    | bool _ => cases decoded
    | string _ => cases decoded
    | array _ => cases decoded
    | object _ => cases decoded
  · rintro ⟨number, rfl, said⟩
    exact decodeInteger_ok_iff.mpr said

theorem made_of_ok {α β ε δ : Type} {result : Except ε α} {make : α → β} {wrap : ε → δ} {value : β}
    (accepted : (result.map make).mapError wrap = .ok value) : ∃ found, value = make found := by
  cases result with
  | error error => cases accepted
  | ok found =>
      cases accepted
      exact ⟨found, rfl⟩

theorem decode_isKind {type : ScalarType} {literal : Json} {value : Value} (decoded : type.decode literal = .ok value) :
    type.IsKind value := by
  unfold decode at decoded
  split at decoded
  next =>
    cases decoded
    trivial
  next =>
    cases decoded
    trivial
  next =>
    obtain ⟨-, -, rfl⟩ := decodeInteger_ok_iff.mp decoded
    trivial
  next =>
    cases decoded
    trivial
  next =>
    cases decoded
    trivial
  next =>
    cases decoded
    trivial
  next =>
    obtain ⟨moment, rfl⟩ := made_of_ok decoded
    trivial
  next =>
    obtain ⟨moment, rfl⟩ := made_of_ok decoded
    trivial
  next =>
    obtain ⟨day, rfl⟩ := made_of_ok decoded
    trivial
  next =>
    obtain ⟨id, rfl⟩ := made_of_ok decoded
    trivial
  next =>
    cases decoded
    trivial
  next => cases decoded

theorem decode_ok_iff {type : ScalarType} {literal : Json} {value : Value} :
    type.decode literal = .ok value ↔ type.Fits literal ∧ type.Mirrors literal value := by
  cases type with
  | integer type =>
      rw [decode_integer_ok_iff]
      constructor
      · rintro ⟨number, written, held, bound, made⟩
        exact ⟨⟨number, written, held, bound⟩, number, written, made⟩
      · rintro ⟨⟨number, written, held, bound⟩, other, same, made⟩
        obtain rfl : number = other := by simpa [written] using same
        exact ⟨number, written, held, bound, made⟩
  | json => simp [decode, Fits, Mirrors, eq_comm]
  | _ => exact ⟨fun decoded => ⟨⟨value, decoded⟩, decoded, decode_isKind decoded⟩, fun both => both.2.1⟩

theorem decodes_iff {type : ScalarType} {literal : Json} :
    (∃ value, type.decode literal = .ok value) ↔ type.Fits literal := by
  constructor
  · rintro ⟨value, decoded⟩
    exact (decode_ok_iff.mp decoded).1
  · intro fits
    cases type with
    | integer type =>
        obtain ⟨number, written, said⟩ := fits
        exact ⟨.int number, decode_integer_ok_iff.mpr ⟨number, written, said.1, said.2, rfl⟩⟩
    | json => exact ⟨.json literal, rfl⟩
    | _ => exact fits

end ScalarType

/-! ## All types -/

namespace FieldType

/-- The type takes the literal. -/
def Fits : FieldType → Json → Prop
  | scalar type, literal => type.Fits literal
  | option type, literal => literal = .null ∨ type.Fits literal
  | list type, literal => ∃ items, literal = .array items ∧ ∀ item ∈ items, type.Fits item
  | boxed type, literal => type.Fits literal
  | custom decoder, literal => ∃ value, decoder literal = .ok value

/-- The value says of the type what the literal says. -/
def Mirrors : FieldType → Json → Value → Prop
  | scalar type, literal, value => type.Mirrors literal value
  | option type, literal, value => literal = .null ∧ value = .null ∨ literal ≠ .null ∧ type.Mirrors literal value
  | list type, literal, value =>
    ∃ items values, literal = .array items ∧ value = .array values ∧ List.Forall₂ type.Mirrors items values
  | boxed type, literal, value => type.Mirrors literal value
  | custom decoder, literal, value => decoder literal = .ok value

variable {type : FieldType} {literal : Json} {value : Value}

theorem decode_option_null : (option type).decode .null = .ok .null := rfl

theorem decode_option_other (some : literal ≠ .null) : (option type).decode literal = type.decode literal := by
  cases literal with
  | null => exact absurd rfl some
  | _ => rfl

theorem decode_list_ok_iff :
    (list type).decode literal = .ok value ↔
      ∃ items values, literal = .array items ∧ items.mapM type.decode = .ok values ∧ value = .array values := by
  constructor
  · intro decoded
    cases literal with
    | array items =>
        obtain ⟨values, done, same⟩ := ok_of_bind (decoded : (items.mapM type.decode >>= _) = _)
        cases same
        exact ⟨items, values, rfl, done, rfl⟩
    | _ => cases decoded
  · rintro ⟨items, values, rfl, done, rfl⟩
    simp [decode, done, bind, Except.bind]

theorem decodes_iff : (∃ value, type.decode literal = .ok value) ↔ type.Fits literal := by
  induction type generalizing literal with
  | scalar type => exact ScalarType.decodes_iff
  | option type ih =>
      by_cases none : literal = .null
      · subst none
        exact iff_of_true ⟨.null, decode_option_null⟩ (.inl rfl)
      · rw [decode_option_other none, ih]
        exact (or_iff_right none).symm
  | list type ih =>
      calc (∃ value, (list type).decode literal = .ok value)
          ↔ ∃ items, literal = .array items ∧ ∃ values, items.mapM type.decode = .ok values := by
            simp only [decode_list_ok_iff]
            constructor
            · rintro ⟨_, items, values, written, done, -⟩
              exact ⟨items, written, values, done⟩
            · rintro ⟨items, written, values, done⟩
              exact ⟨.array values, items, values, written, done, rfl⟩
        _ ↔ (list type).Fits literal := by simp only [mapM_accepts_iff, ih, Fits]
  | boxed type ih => exact ih
  | custom decoder =>
      unfold decode Fits
      cases decoder literal <;> simp [Except.mapError]

theorem decode_ok_iff : type.decode literal = .ok value ↔ type.Fits literal ∧ type.Mirrors literal value := by
  induction type generalizing literal value with
  | scalar type => exact ScalarType.decode_ok_iff
  | option type ih =>
      by_cases none : literal = .null
      · subst none
        simp [decode_option_null, Fits, Mirrors, eq_comm]
      · rw [decode_option_other none, ih]
        simp [Fits, Mirrors, none]
  | list type ih =>
      rw [decode_list_ok_iff]
      simp only [mapM_ok_iff, ih, List.forall₂_and_left]
      constructor
      · rintro ⟨items, values, written, ⟨fits, mirrored⟩, made⟩
        exact ⟨⟨items, written, fits⟩, items, values, written, made, mirrored⟩
      · rintro ⟨⟨items, written, fits⟩, others, values, same, made, mirrored⟩
        obtain rfl : items = others := by simpa [written] using same
        exact ⟨items, values, written, ⟨fits, mirrored⟩, made⟩
  | boxed type ih => exact ih
  | custom decoder =>
      unfold decode Fits Mirrors
      cases decoder literal <;> simp [Except.mapError]

/-- A number in a text is taken by an integer type if it is written as an integer and is one of the type. -/
theorem decode_numeral_iff {type : IntegerType} {numeral : Json.Numeral} {value : Value} :
    (∃ literal, Json.parse (.ofList numeral.chars) = .ok literal ∧
        (scalar (.integer type)).decode literal = .ok value) ↔
      (numeral.fraction = [] ∧ numeral.exponent = [] ∧ ¬(numeral.negative = true ∧ numeral.significand = 0)) ∧
        type.Holds numeral.value ∧ IntegerType.int64.Holds numeral.value ∧ value = .int numeral.value := by
  have whole : numeral.tail = [] ↔ numeral.fraction = [] ∧ numeral.exponent = [] := List.append_eq_nil_iff
  constructor
  · rintro ⟨literal, read, decoded⟩
    obtain ⟨number, rfl, held, bound, rfl⟩ := ScalarType.decode_integer_ok_iff.mp decoded
    obtain ⟨noTail, noZero, -, -, rfl⟩ := numeral.parse_integer_iff.mp read
    obtain ⟨noFraction, noExponent⟩ := whole.mp noTail
    exact ⟨⟨noFraction, noExponent, noZero⟩, held, bound, rfl⟩
  · rintro ⟨⟨noFraction, noExponent, noZero⟩, held, bound, rfl⟩
    have bounds := (IntegerType.int64_holds_iff _).mp bound
    unfold Sql.leastInt Sql.greatestInt at bounds
    have read := numeral.parse_integer_iff.mpr ⟨whole.mpr ⟨noFraction, noExponent⟩, noZero, bounds.1, by omega, rfl⟩
    exact ⟨_, read, ScalarType.decode_integer_ok_iff.mpr ⟨_, rfl, held, bound, rfl⟩⟩

/-- A literal is decoded if it fits the type, and the value is its mirror. Of the numbers in a text, those fit an
integer type that are written as integers and are in its range and in that of 64 bits, each standing for itself. -/
theorem decode_exact :
    (∀ (type : FieldType) (literal : Json), (∃ value, type.decode literal = .ok value) ↔ type.Fits literal) ∧
    (∀ (type : FieldType) (literal : Json) (value : Value),
      type.decode literal = .ok value ↔ type.Fits literal ∧ type.Mirrors literal value) ∧
    (∀ (type : IntegerType) (numeral : Json.Numeral) (value : Value),
      (∃ literal, Json.parse (.ofList numeral.chars) = .ok literal ∧
          (scalar (.integer type)).decode literal = .ok value) ↔
        (numeral.fraction = [] ∧ numeral.exponent = [] ∧ ¬(numeral.negative = true ∧ numeral.significand = 0)) ∧
          type.Holds numeral.value ∧ IntegerType.int64.Holds numeral.value ∧ value = .int numeral.value) :=
  ⟨fun _ _ => decodes_iff, fun _ _ _ => decode_ok_iff, fun _ _ _ => decode_numeral_iff⟩

end FieldType

end FilterSql.Schema
