import FilterSql.Proofs.Json.SyntaxTree
import FilterSql.Proofs.Json.Tree

/-!
# Reading numbers

A number is read as an integer if it is written without fraction and exponent and is within the bounds of 64-bit
integers, unless it is a negative zero. All others are read as floating-point numbers or not at all.
-/

set_option autoImplicit false

namespace FilterSql.Json

/-! ## Floating-point numbers -/

/-- If a number is read, it is no integer. -/
def NoInteger (result : Except Fault (Number × List Char)) : Prop :=
  ∀ value rest, result ≠ .ok (.integer value, rest)

theorem noInteger_error (fault : Fault) : NoInteger (.error fault) :=
  fun _ _ read => nomatch read

theorem noInteger_float (value : Numeric.Double) (rest : List Char) : NoInteger (.ok (.float value, rest)) :=
  fun _ _ read => nomatch read

theorem makeFloat_noInteger (negative : Bool) (significand : Nat) (exponent : Int) (rest : List Char) :
    NoInteger (makeFloat negative significand exponent rest) := by
  unfold makeFloat
  split
  · exact noInteger_float _ _
  · exact noInteger_error _

theorem readExponent_noInteger (negative : Bool) (significand : Nat) (exponent : Int) (text : List Char) :
    NoInteger (readExponent negative significand exponent text) := by
  unfold readExponent
  split
  next down digits _ =>
  cases digits with
  | nil => exact noInteger_error _
  | cons c digits =>
      dsimp only
      split
      · split
        · split
          · exact noInteger_error _
          · exact noInteger_float _ _
        · exact makeFloat_noInteger _ _ _ _
      · exact noInteger_error _

theorem finishFloat_noInteger (negative : Bool) (significand : Nat) (exponent : Int) (text : List Char) :
    NoInteger (finishFloat negative significand exponent text) := by
  unfold finishFloat
  split
  · split
    · exact readExponent_noInteger _ _ _ _
    · exact makeFloat_noInteger _ _ _ _
  · exact makeFloat_noInteger _ _ _ _

theorem readFraction_noInteger (negative : Bool) (significand : Nat) (exponent : Int) (text : List Char) :
    NoInteger (readFraction negative significand exponent text) := by
  unfold readFraction
  dsimp only
  split
  · exact finishFloat_noInteger _ _ _ _
  · split
    · exact noInteger_error _
    · exact finishFloat_noInteger _ _ _ _

theorem finishLongNumber_noInteger (negative : Bool) (significand : Nat) (text : List Char) :
    NoInteger (finishLongNumber negative significand text) := by
  unfold finishLongNumber
  dsimp only
  split
  · exact readFraction_noInteger _ _ _ _
  · exact finishFloat_noInteger _ _ _ _

/-! ## Significands -/

/-- The number that digits stand for behind a number that others stand for. -/
def valueFrom (value : Nat) (digits : List Char) : Nat :=
  digits.foldl (fun value c => 10 * value + digitValue c) value

theorem le_valueFrom (value : Nat) (digits : List Char) : value ≤ valueFrom value digits := by
  induction digits generalizing value with
  | nil => exact Nat.le_refl value
  | cons c digits ih =>
      have first : value ≤ 10 * value + digitValue c := by omega
      exact Nat.le_trans first (ih _)

variable {bound : Nat} {digits rest : List Char}

theorem accumulate_ended (ended : startsWithDigit rest = false) (value : Nat) :
    accumulate bound value rest = (value, 0, rest) := by
  cases rest with
  | nil => rfl
  | cons c behind =>
      have noDigit : ¬c.isDigit = true := by simpa [startsWithDigit] using ended
      rw [accumulate, if_neg fun taken => noDigit taken.1]

/-- Digits are taken one by one as long as the bound is not passed. -/
theorem accumulate_all (areDigits : ∀ c ∈ digits, c.isDigit = true) (ended : startsWithDigit rest = false)
    {value : Nat} (small : valueFrom value digits ≤ bound) :
    accumulate bound value (digits ++ rest) = (valueFrom value digits, digits.length, rest) := by
  induction digits generalizing value with
  | nil => exact accumulate_ended ended value
  | cons c digits ih =>
      obtain ⟨isDigit, others⟩ := List.forall_mem_cons.mp areDigits
      have taken : 10 * value + digitValue c ≤ bound := Nat.le_trans (le_valueFrom _ digits) small
      rw [List.cons_append, accumulate, if_pos (And.intro isDigit taken), ih others small]
      rfl

theorem accumulate_some (areDigits : ∀ c ∈ digits, c.isDigit = true) {value : Nat} (start : value ≤ bound)
    (great : bound < valueFrom value digits) :
    startsWithDigit (accumulate bound value (digits ++ rest)).2.2 = true := by
  induction digits generalizing value with
  | nil => exact absurd start (Nat.not_le.mpr great)
  | cons c digits ih =>
      obtain ⟨isDigit, others⟩ := List.forall_mem_cons.mp areDigits
      rw [List.cons_append, accumulate]
      by_cases taken : 10 * value + digitValue c ≤ bound
      · rw [if_pos (And.intro isDigit taken)]
        exact ih others taken great
      · rw [if_neg fun both => taken both.2]
        exact isDigit

/-! ## Numbers as they are written -/

theorem ne_of_isDigit {c d : Char} (isDigit : c.isDigit = true) (noDigit : d.isDigit = false) : c ≠ d := by
  rintro rfl
  rw [isDigit] at noDigit
  cases noDigit

/-- A number is told by its first character. -/
theorem ne_of_starts {c d : Char} (starts : c = '-' ∨ c.isDigit = true) (noSign : d ≠ '-')
    (noDigit : d.isDigit = false) :
    c ≠ d := by
  rcases starts with rfl | isDigit
  · exact noSign.symm
  · exact ne_of_isDigit isDigit noDigit

theorem noBlank_of_starts {c : Char} (starts : c = '-' ∨ c.isDigit = true) : isBlank c = false := by
  simp [isBlank, ne_of_starts starts]

namespace Numeral

/-- The number that the digits before fraction and exponent stand for. -/
def significand (numeral : Numeral) : Nat :=
  valueFrom 0 numeral.whole

/-- The number that a numeral without fraction and exponent stands for. -/
def value (numeral : Numeral) : Int :=
  if numeral.negative then -numeral.significand else numeral.significand

/-- What is written behind the whole part. -/
def tail (numeral : Numeral) : List Char :=
  numeral.fraction ++ numeral.exponent

theorem chars_eq (numeral : Numeral) : numeral.chars = numeral.sign ++ (numeral.whole ++ numeral.tail) := by
  simp [chars, tail]

end Numeral

/-- The text does not go on with a number that it stands behind. -/
def EndsNumber (rest : List Char) : Prop :=
  ∀ c ∈ rest.head?, c.isDigit = false ∧ c ∉ ['.', 'e', 'E']

theorem endsNumber_nil : EndsNumber [] :=
  fun _ member => nomatch member

theorem EndsNumber.noDigit (ends : EndsNumber rest) : startsWithDigit rest = false := by
  cases rest with
  | nil => rfl
  | cons c behind => exact (ends c rfl).1

theorem finishNumber_ended (ends : EndsNumber rest) (negative : Bool) (significand : Nat) :
    finishNumber negative significand rest = .ok (makeInteger negative significand, rest) := by
  cases rest with
  | nil => rfl
  | cons c behind =>
      obtain ⟨-, other⟩ := ends c rfl
      simp only [List.mem_cons, List.not_mem_nil, or_false, not_or] at other
      simp [finishNumber, other]

namespace Numeral

variable (numeral : Numeral)

/-- Behind the whole part comes the point of a fraction, the letter of an exponent, or nothing. -/
theorem tail_shape : numeral.tail = [] ∨ ∃ c ∈ ['.', 'e', 'E'], ∃ behind, numeral.tail = c :: behind := by
  unfold tail
  rcases numeral.fractionDigits with noFraction | ⟨digits, -, written⟩
  · rcases numeral.exponentDigits with noExponent | ⟨letter, isLetter, sign, -, digits, -, written⟩
    · left
      rw [noFraction, noExponent]
      rfl
    · right
      exact ⟨letter, .tail _ isLetter, sign ++ digits, by rw [noFraction, written]; rfl⟩
  · right
    exact ⟨'.', .head _, digits ++ numeral.exponent, by rw [written]; rfl⟩

theorem tail_ended (ends : EndsNumber rest) : startsWithDigit (numeral.tail ++ rest) = false := by
  rcases numeral.tail_shape with none | ⟨c, mark, behind, shape⟩
  · rw [none]
    exact ends.noDigit
  · simp only [List.mem_cons, List.not_mem_nil, or_false] at mark
    rw [shape]
    rcases mark with rfl | rfl | rfl <;> rfl

theorem finishNumber_tail (written : numeral.tail ≠ []) (negative : Bool) (significand : Nat) :
    NoInteger (finishNumber negative significand (numeral.tail ++ rest)) := by
  obtain ⟨c, mark, behind, shape⟩ := numeral.tail_shape.resolve_left written
  simp only [List.mem_cons, List.not_mem_nil, or_false] at mark
  rw [shape]
  rcases mark with rfl | rfl | rfl
  · exact readFraction_noInteger _ _ _ _
  · exact readExponent_noInteger _ _ _ _
  · exact readExponent_noInteger _ _ _ _

theorem readNumber_short (ends : EndsNumber rest) (negative : Bool) (short : numeral.significand ≤ maxSignificand) :
    readNumber negative (numeral.whole ++ (numeral.tail ++ rest)) =
      finishNumber negative numeral.significand (numeral.tail ++ rest) := by
  obtain ⟨some, areDigits⟩ := numeral.wholeDigits
  have ended := numeral.tail_ended ends
  have all := accumulate_all areDigits ended short
  have leading := numeral.leading
  unfold significand at all ⊢
  cases written : numeral.whole with
  | nil => exact absurd written some
  | cons c digits =>
      rw [written] at all leading areDigits
      have isDigit := areDigits c (.head _)
      by_cases zero : c = '0'
      · subst zero
        obtain rfl : digits = [] := (List.cons.inj (leading rfl)).2
        simp [readNumber, ended, valueFrom, digitValue]
      · rw [List.cons_append] at all ⊢
        simp [readNumber, zero, isDigit, all, ended]

theorem readNumber_long (negative : Bool) (long : maxSignificand < numeral.significand) :
    NoInteger (readNumber negative (numeral.whole ++ (numeral.tail ++ rest))) := by
  obtain ⟨some, areDigits⟩ := numeral.wholeDigits
  have more : startsWithDigit (accumulate maxSignificand 0 (numeral.whole ++ (numeral.tail ++ rest))).2.2 = true :=
    accumulate_some areDigits (Nat.zero_le _) long
  have leading := numeral.leading
  unfold significand at long
  cases written : numeral.whole with
  | nil => exact absurd written some
  | cons c digits =>
      rw [written] at more leading areDigits long
      have isDigit := areDigits c (.head _)
      by_cases zero : c = '0'
      · subst zero
        obtain rfl : digits = [] := (List.cons.inj (leading rfl)).2
        exact absurd long (by decide)
      · rw [List.cons_append] at more ⊢
        simp only [readNumber, zero, if_false, isDigit, if_true, more]
        exact finishLongNumber_noInteger _ _ _

/-- Zero keeps its sign by being no integer. -/
theorem makeInteger_iff {integer : Int} (short : numeral.significand ≤ maxSignificand) :
    makeInteger numeral.negative numeral.significand = .integer integer ↔
      ¬(numeral.negative = true ∧ numeral.significand = 0) ∧ -9223372036854775808 ≤ numeral.value ∧
        numeral.value = integer := by
  unfold makeInteger value
  unfold maxSignificand at short
  cases numeral.negative with
  | false =>
      simp only [Bool.false_eq_true, if_false, Number.integer.injEq, false_and, not_false_eq_true, true_and]
      omega
  | true =>
      simp only [if_true, true_and]
      split
      · simp only [reduceCtorEq, false_iff]
        omega
      · rw [Number.integer.injEq]
        omega

/-- A number is read as an integer if it is written as one and is within the bounds. -/
theorem readNumber_integer_iff (ends : EndsNumber rest) {integer : Int} {after : List Char} :
    readNumber numeral.negative (numeral.whole ++ (numeral.tail ++ rest)) = .ok (.integer integer, after) ↔
      (numeral.tail = [] ∧ ¬(numeral.negative = true ∧ numeral.significand = 0) ∧
        -9223372036854775808 ≤ numeral.value ∧ numeral.value ≤ 18446744073709551615 ∧ numeral.value = integer) ∧
      after = rest := by
  by_cases short : numeral.significand ≤ maxSignificand
  · rw [numeral.readNumber_short ends _ short]
    by_cases written : numeral.tail = []
    · have bounded : numeral.value ≤ 18446744073709551615 := by
        unfold value
        unfold maxSignificand at short
        split <;> omega
      rw [written, List.nil_append, finishNumber_ended ends]
      simp only [Except.ok.injEq, Prod.mk.injEq, numeral.makeInteger_iff short, bounded, true_and, eq_comm (a := rest)]
    · constructor
      · intro read
        exact absurd read (numeral.finishNumber_tail written _ _ _ _)
      · rintro ⟨⟨none, -⟩, -⟩
        exact absurd none written
  · constructor
    · intro read
      exact absurd read (numeral.readNumber_long _ (Nat.not_le.mp short) _ _)
    · rintro ⟨⟨-, noZero, least, greatest, -⟩, -⟩
      -- A negative number this long is below the least one.
      unfold value at least greatest
      unfold maxSignificand at short
      split at greatest
      next negative =>
        rw [if_pos negative] at least
        omega
      next => omega

/-! ## Numbers as whole texts -/

/-- A scalar that starts with a sign or a digit is a number. -/
theorem exists_readScalar (rest : List Char) :
    ∃ c behind, numeral.chars ++ rest = c :: behind ∧ (c = '-' ∨ c.isDigit = true) ∧
      readScalar c behind =
        readNumber numeral.negative (numeral.whole ++ (numeral.tail ++ rest)) >>= fun (found, after) =>
          .ok (.number found, after) := by
  rw [chars_eq, sign]
  cases numeral.negative with
  | true => exact ⟨'-', _, rfl, .inl rfl, by simp [readScalar]⟩
  | false =>
      obtain ⟨some, areDigits⟩ := numeral.wholeDigits
      cases written : numeral.whole with
      | nil => exact absurd written some
      | cons c digits =>
          have isDigit : c.isDigit = true := areDigits c (written ▸ .head _)
          have noSign := ne_of_isDigit isDigit (by decide : '-'.isDigit = false)
          have noNull := ne_of_isDigit isDigit (by decide : 'n'.isDigit = false)
          have noTrue := ne_of_isDigit isDigit (by decide : 't'.isDigit = false)
          have noFalse := ne_of_isDigit isDigit (by decide : 'f'.isDigit = false)
          exact ⟨c, _, rfl, .inr isDigit, by simp [readScalar, noNull, noTrue, noFalse, noSign, isDigit]⟩

theorem readValue_chars (depth : Nat) :
    readValue depth (numeral.chars ++ rest) =
      readNumber numeral.negative (numeral.whole ++ (numeral.tail ++ rest)) >>= fun (found, after) =>
        .ok (.number found, after) := by
  obtain ⟨c, behind, shape, starts, read⟩ := numeral.exists_readScalar rest
  have noList := ne_of_starts starts (by decide : '[' ≠ '-') rfl
  have noObject := ne_of_starts starts (by decide : '\x7b' ≠ '-') rfl
  rw [shape, readValue, skipBlank, List.dropWhile_cons_of_neg (by simp [noBlank_of_starts starts]), ← read]
  simp only [noList, noObject, if_false]

theorem readValue_integer_iff (ends : EndsNumber rest) {integer : Int} {depth : Nat} {after : List Char} :
    readValue depth (numeral.chars ++ rest) = .ok (.number (.integer integer), after) ↔
      (numeral.tail = [] ∧ ¬(numeral.negative = true ∧ numeral.significand = 0) ∧
        -9223372036854775808 ≤ numeral.value ∧ numeral.value ≤ 18446744073709551615 ∧ numeral.value = integer) ∧
      after = rest := by
  rw [← numeral.readNumber_integer_iff ends, readValue_chars]
  cases readNumber numeral.negative (numeral.whole ++ (numeral.tail ++ rest)) <;>
    simp [bind, Except.bind, Prod.ext_iff]

theorem parse_integer_iff {integer : Int} :
    parse (.ofList numeral.chars) = .ok (.number (.integer integer)) ↔
      numeral.tail = [] ∧ ¬(numeral.negative = true ∧ numeral.significand = 0) ∧
        -9223372036854775808 ≤ numeral.value ∧ numeral.value ≤ 18446744073709551615 ∧ numeral.value = integer := by
  rw [parse, readAll_ok_iff, String.toList_ofList, ← List.append_nil numeral.chars]
  simp only [numeral.readValue_integer_iff endsNumber_nil]
  constructor
  · rintro ⟨rest, ⟨said, -⟩, -⟩
    exact said
  · intro said
    exact ⟨[], ⟨said, rfl⟩, rfl⟩

end Numeral

end FilterSql.Json
