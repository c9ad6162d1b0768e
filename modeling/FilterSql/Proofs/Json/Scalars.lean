import FilterSql.Json.Shape
import FilterSql.Proofs.Failure
import FilterSql.Proofs.Json.Spelled
import Mathlib.Data.List.TakeWhile

/-!
# Words, strings and numbers that are read

Whatever part of a text is read as a word, a string or a number, or is read over as one, is a spelling of it.
-/

set_option autoImplicit false

namespace FilterSql.Json

variable {text middle rest : List Char}

/-! ## Codes -/

/-- The text starts with the four digits of a code. -/
inductive SpellsCode : Nat → (text rest : List Char) → Prop where
  | digits {first second third fourth : Char} {a b c d : Nat} {rest : List Char} :
      hexValue? first = some a → hexValue? second = some b → hexValue? third = some c → hexValue? fourth = some d →
      SpellsCode (16 * (16 * (16 * a + b) + c) + d) (first :: second :: third :: fourth :: rest) rest

theorem SpellsCode.lt {code : Nat} (spelled : SpellsCode code text rest) : code < 0x10000 := by
  cases spelled with
  | digits one two three four =>
      have first := hexValue_lt one
      have second := hexValue_lt two
      have third := hexValue_lt three
      have fourth := hexValue_lt four
      omega

theorem SpellsCode.units {code : Nat} {units : List UInt16} (spelled : SpellsCode code text middle)
    (following : SpellsUnits units middle rest) : SpellsUnits (.ofNat code :: units) ('\\' :: 'u' :: text) rest := by
  cases spelled with
  | digits one two three four => exact .code one two three four following

theorem rest_of_readHex {code : Nat} (read : readHex text = .ok (code, rest)) : rest = text.drop 4 := by
  unfold readHex at read
  dsimp only at read
  split at read
  · cases read
    rfl
  · split at read <;> cases read

theorem hexDigits_of_readHex {code : Nat} (read : readHex text = .ok (code, rest)) :
    (text.take 4).length = 4 ∧ ∀ c ∈ text.take 4, (hexValue? c).isSome = true := by
  unfold readHex at read
  dsimp only at read
  split at read
  next four =>
    have taken := List.length_take_le 4 text
    have kept := List.length_filterMap_le hexValue? (text.take 4)
    have long : (text.take 4).length = 4 := by omega
    exact ⟨long, List.filterMap_length_eq_length.mp (four.trans long.symm)⟩
  next => split at read <;> cases read

theorem spellsCode_of_readHex {code : Nat} (read : readHex text = .ok (code, rest)) : SpellsCode code text rest := by
  obtain ⟨long, digits⟩ := hexDigits_of_readHex read
  match text, long with
  | first :: second :: third :: fourth :: after, _ =>
      simp only [List.take_succ_cons, List.take_zero, List.forall_mem_cons, Option.isSome_iff_exists] at digits
      obtain ⟨⟨a, one⟩, ⟨b, two⟩, ⟨c, three⟩, ⟨d, four⟩, -⟩ := digits
      rw [readHex_of_hexValue one two three four] at read
      cases read
      exact .digits one two three four

/-! ## Strings -/

theorem toNat_ofNat_of_valid {code : Nat} (valid : code < 0xD800 ∨ 0xDFFF < code ∧ code < 0x110000) :
    (Char.ofNat code).toNat = code := by
  have isValid : code.isValidChar := valid
  rw [Char.ofNat, dif_pos isValid]
  rfl

theorem unitsOf_single {code : Nat} (valid : code < 0xD800 ∨ 0xDFFF < code) (small : code < 0x10000) :
    unitsOf (.ofNat code) = [.ofNat code] := by
  rw [unitsOf, toNat_ofNat_of_valid (by omega), if_pos small]

theorem unitsOf_pair {first second : Nat} (high : 0xD800 ≤ first ∧ first ≤ 0xDBFF)
    (low : 0xDC00 ≤ second ∧ second ≤ 0xDFFF) :
    unitsOf (.ofNat (0x10000 + (first - 0xD800) * 0x400 + (second - 0xDC00))) = [.ofNat first, .ofNat second] := by
  have firstHalf : 0xD800 + (0x10000 + (first - 0xD800) * 0x400 + (second - 0xDC00) - 0x10000) / 0x400 = first := by
    omega
  have secondHalf : 0xDC00 + (0x10000 + (first - 0xD800) * 0x400 + (second - 0xDC00) - 0x10000) % 0x400 = second := by
    omega
  rw [unitsOf, toNat_ofNat_of_valid (by omega), if_neg (by omega), firstHalf, secondHalf]

section Strings

variable {units : List UInt16}

theorem text_of_readMark {mark : Char} {reason : Reason} (read : readMark mark reason text = .ok rest) :
    text = mark :: rest := by
  unfold readMark at read
  split at read
  next => cases read
  next c after =>
    split at read
    next same =>
      cases read
      rw [same]
    next => cases read

theorem units_of_readCodePoint {c : Char} (read : readCodePoint text = .ok (c, middle))
    (following : SpellsUnits units middle rest) : SpellsUnits (unitsOf c ++ units) ('\\' :: 'u' :: text) rest := by
  unfold readCodePoint at read
  obtain ⟨⟨first, behind⟩, firstRead, read⟩ := ok_of_bind read
  have firstCode := spellsCode_of_readHex firstRead
  dsimp only at read
  split at read
  next => cases read
  next noLow =>
    split at read
    next noHigh =>
      cases read
      rw [unitsOf_single (by omega) firstCode.lt]
      exact firstCode.units following
    next high =>
      obtain ⟨marked, backslash, read⟩ := ok_of_bind read
      obtain ⟨digits, letter, read⟩ := ok_of_bind read
      obtain ⟨⟨second, after⟩, secondRead, read⟩ := ok_of_bind read
      have secondCode := spellsCode_of_readHex secondRead
      dsimp only at read
      split at read
      next => cases read
      next low =>
        simp only [Except.ok.injEq, Prod.mk.injEq] at read
        obtain ⟨rfl, rfl⟩ := read
        rw [unitsOf_pair (by omega) (by omega)]
        rw [text_of_readMark backslash, text_of_readMark letter] at firstCode
        exact firstCode.units (secondCode.units following)

theorem units_of_readStringChar {c plain : Char} (noQuote : c ≠ '"')
    (read : readStringChar c text = .ok (plain, middle)) (following : SpellsUnits units middle rest) :
    SpellsUnits (unitsOf plain ++ units) (c :: text) rest := by
  unfold readStringChar at read
  split at read
  next escape =>
    subst escape
    cases text with
    | nil => cases read
    | cons letter text =>
        dsimp only at read
        split at read
        next code =>
          subst code
          exact units_of_readCodePoint read following
        next =>
          cases isLetter : escaped? letter with
          | none =>
              rw [isLetter] at read
              cases read
          | some found =>
              rw [isLetter] at read
              cases read
              exact .letter isLetter following
  next noEscape =>
    split at read
    next => cases read
    next printable =>
      cases read
      exact .plain noQuote noEscape (Nat.le_of_not_lt printable) following

theorem units_of_readStringChars {fuel : Nat} {chars : List Char}
    (read : readStringChars fuel text = .ok (chars, rest)) :
    SpellsUnits (chars.flatMap unitsOf) text rest := by
  induction fuel generalizing text chars with
  | zero => cases read
  | succ fuel ih =>
      cases text with
      | nil => cases read
      | cons c text =>
          unfold readStringChars at read
          split at read
          next quote =>
            subst quote
            cases read
            exact .close rest
          next noQuote =>
            obtain ⟨⟨plain, behind⟩, charRead, read⟩ := ok_of_bind read
            obtain ⟨⟨plains, after⟩, charsRead, read⟩ := ok_of_bind read
            cases read
            exact units_of_readStringChar noQuote charRead (ih charsRead)

theorem units_of_readString {value : String} (read : readString text = .ok (value, rest)) :
    SpellsUnits (unitsOfText value) text rest := by
  unfold readString at read
  obtain ⟨⟨chars, after⟩, charsRead, read⟩ := ok_of_bind read
  cases read
  rw [unitsOfText, String.toList_ofList]
  exact units_of_readStringChars charsRead

theorem exists_units_of_skipString {fuel : Nat} (skipped : skipString fuel text = .ok rest) :
    ∃ units, SpellsUnits units text rest := by
  induction fuel generalizing text with
  | zero => cases skipped
  | succ fuel ih =>
      cases text with
      | nil => cases skipped
      | cons c text =>
          unfold skipString at skipped
          split at skipped
          next quote =>
            subst quote
            cases skipped
            exact ⟨_, .close _⟩
          next noQuote =>
            split at skipped
            next escape =>
              subst escape
              cases text with
              | nil => cases skipped
              | cons letter text =>
                  dsimp only at skipped
                  split at skipped
                  next code =>
                    subst code
                    obtain ⟨⟨number, behind⟩, read, skipped⟩ := ok_of_bind skipped
                    obtain ⟨units, following⟩ := ih skipped
                    exact ⟨_, (spellsCode_of_readHex read).units following⟩
                  next =>
                    split at skipped
                    next isLetter =>
                      obtain ⟨found, isLetter⟩ := Option.isSome_iff_exists.mp isLetter
                      obtain ⟨units, following⟩ := ih skipped
                      exact ⟨_, .letter isLetter following⟩
                    next => cases skipped
            next noEscape =>
              split at skipped
              next => cases skipped
              next printable =>
                obtain ⟨units, following⟩ := ih skipped
                exact ⟨_, .plain noQuote noEscape (Nat.le_of_not_lt printable) following⟩

end Strings

/-! ## Digits -/

/-- The text starts with one or more digits. -/
def SpellsDigits (text rest : List Char) : Prop :=
  ∃ digits, Digits digits ∧ text = digits ++ rest

theorem spellsDigits_dropWhile (digit : startsWithDigit text = true) :
    SpellsDigits text (text.dropWhile Char.isDigit) := by
  refine ⟨text.takeWhile Char.isDigit, ⟨?_, ?_⟩, List.takeWhile_append_dropWhile.symm⟩
  · cases text with
    | nil => cases digit
    | cons c after => simp [List.takeWhile_cons_of_pos (show c.isDigit = true from digit)]
  · intro c member
    exact List.mem_takeWhile_imp member

theorem dropWhile_ended (ended : startsWithDigit text = false) : text.dropWhile Char.isDigit = text := by
  cases text with
  | nil => rfl
  | cons c after => exact List.dropWhile_cons_of_neg (by simpa [startsWithDigit] using ended)

/-- What is left behind the digits that are taken is digits and what stands behind all of them. -/
theorem dropWhile_accumulate (bound value : Nat) (text : List Char) :
    (accumulate bound value text).2.2.dropWhile Char.isDigit = text.dropWhile Char.isDigit := by
  induction text generalizing value with
  | nil => rfl
  | cons c text ih =>
      unfold accumulate
      split
      next taken => exact (ih _).trans (List.dropWhile_cons_of_pos taken.1).symm
      next => rfl

/-! ## Parts of numbers -/

/-- The text starts with what stands behind the letter of an exponent. -/
inductive SpellsPower : (text rest : List Char) → Prop where
  | signed {sign text rest : List Char} :
      sign ∈ [[], ['+'], ['-']] → SpellsDigits text rest → SpellsPower (sign ++ text) rest

/-- The text starts with an exponent, or there is none. -/
inductive SpellsExponent : (text rest : List Char) → Prop where
  | none (rest : List Char) : SpellsExponent rest rest
  | power {letter : Char} {text rest : List Char} :
      letter = 'e' ∨ letter = 'E' → SpellsPower text rest → SpellsExponent (letter :: text) rest

/-- The text starts with what stands behind the whole part of a number. -/
inductive SpellsTail : (text rest : List Char) → Prop where
  | exponent {text rest : List Char} : SpellsExponent text rest → SpellsTail text rest
  | fraction {text middle rest : List Char} :
      SpellsDigits text middle → SpellsExponent middle rest → SpellsTail ('.' :: text) rest

theorem SpellsExponent.exists_chars (spelled : SpellsExponent text rest) :
    ∃ exponent, (exponent = [] ∨ ∃ letter ∈ ['e', 'E'], ∃ sign ∈ [[], ['+'], ['-']], ∃ digits, Digits digits ∧
      exponent = letter :: sign ++ digits) ∧ text = exponent ++ rest := by
  cases spelled with
  | none _ => exact ⟨[], .inl rfl, rfl⟩
  | power isLetter power =>
      cases power with
      | signed isSign spelled =>
          obtain ⟨digits, areDigits, rfl⟩ := spelled
          exact ⟨_, .inr ⟨_, by simpa using isLetter, _, isSign, digits, areDigits, rfl⟩, by simp⟩

/-- Behind digits, the parts make up a number. -/
theorem SpellsTail.exists_numeral (spelled : SpellsTail text rest) (negative : Bool) {whole : List Char}
    (wholeDigits : Digits whole) (leading : whole.head? = some '0' → whole = ['0']) :
    ∃ numeral : Numeral, numeral.negative = negative ∧ whole ++ text = numeral.whole ++ (numeral.tail ++ rest) := by
  cases spelled with
  | exponent spelled =>
      obtain ⟨exponent, exponentDigits, rfl⟩ := spelled.exists_chars
      exact ⟨⟨negative, whole, [], exponent, wholeDigits, leading, .inl rfl, exponentDigits⟩, rfl,
        by simp [Numeral.tail]⟩
  | fraction digitsSpelled spelled =>
      obtain ⟨digits, areDigits, rfl⟩ := digitsSpelled
      obtain ⟨exponent, exponentDigits, rfl⟩ := spelled.exists_chars
      exact ⟨⟨negative, whole, '.' :: digits, exponent, wholeDigits, leading, .inr ⟨digits, areDigits, rfl⟩,
        exponentDigits⟩, rfl, by simp [Numeral.tail]⟩

/-- A zero is the whole part of a number. -/
theorem SpellsTail.exists_zero (spelled : SpellsTail text rest) (negative : Bool) :
    ∃ numeral : Numeral, numeral.negative = negative ∧ '0' :: text = numeral.whole ++ (numeral.tail ++ rest) :=
  spelled.exists_numeral negative ⟨by simp, by simp⟩ fun _ => rfl

theorem SpellsTail.exists_digits {c : Char} (spelled : SpellsTail (text.dropWhile Char.isDigit) rest) (negative : Bool)
    (noZero : c ≠ '0') (isDigit : c.isDigit = true) :
    ∃ numeral : Numeral, numeral.negative = negative ∧ c :: text = numeral.whole ++ (numeral.tail ++ rest) := by
  have each : ∀ d ∈ c :: text.takeWhile Char.isDigit, d.isDigit = true :=
    List.forall_mem_cons.mpr ⟨isDigit, fun d member => List.mem_takeWhile_imp member⟩
  obtain ⟨numeral, sign, same⟩ :=
    spelled.exists_numeral negative ⟨List.cons_ne_nil _ _, each⟩ fun zero => absurd (Option.some.inj zero) noZero
  refine ⟨numeral, sign, ?_⟩
  rw [← same, List.cons_append, List.takeWhile_append_dropWhile]

/-! ## Numbers that are read -/

section Numbers

variable {negative : Bool} {significand : Nat} {exponent : Int} {number : Number}

theorem rest_of_makeFloat (made : makeFloat negative significand exponent text = .ok (number, rest)) : rest = text := by
  unfold makeFloat at made
  split at made
  · cases made
    rfl
  · cases made

theorem spellsPower_of_readExponent (read : readExponent negative significand exponent text = .ok (number, rest)) :
    SpellsPower text rest := by
  unfold readExponent at read
  split at read
  next down digits unsigned =>
  obtain ⟨sign, isSign, rfl⟩ : ∃ sign ∈ [[], ['+'], ['-']], text = sign ++ digits := by
    split at unsigned <;> cases unsigned
    · exact ⟨['+'], by simp, rfl⟩
    · exact ⟨['-'], by simp, rfl⟩
    · exact ⟨[], by simp, rfl⟩
  refine .signed isSign ?_
  cases digits with
  | nil => cases read
  | cons c digits =>
      dsimp only at read
      have left := dropWhile_accumulate maxExponent 0 (c :: digits)
      split at read
      next isDigit =>
        have spelled : SpellsDigits (c :: digits) _ := spellsDigits_dropWhile isDigit
        split at read
        next =>
          split at read
          next => cases read
          next =>
            cases read
            rwa [left]
        next ended =>
          rw [dropWhile_ended (by simpa using ended)] at left
          rw [rest_of_makeFloat read, left]
          exact spelled
      next => cases read

theorem spellsExponent_of_finishFloat (read : finishFloat negative significand exponent text = .ok (number, rest)) :
    SpellsExponent text rest := by
  unfold finishFloat at read
  split at read
  next c after =>
    split at read
    next isLetter => exact .power isLetter (spellsPower_of_readExponent read)
    next =>
      rw [rest_of_makeFloat read]
      exact .none _
  next =>
    rw [rest_of_makeFloat read]
    exact .none _

theorem spellsTail_of_readFraction (read : readFraction negative significand exponent text = .ok (number, rest)) :
    SpellsTail ('.' :: text) rest := by
  unfold readFraction at read
  cases digit : startsWithDigit text with
  | false =>
      rw [accumulate_ended digit] at read
      simp [digit] at read
  | true =>
      refine .fraction (spellsDigits_dropWhile digit) ?_
      have left := dropWhile_accumulate maxSignificand significand text
      dsimp only at read
      split at read
      next =>
        rw [left] at read
        exact spellsExponent_of_finishFloat read
      next ended =>
        rw [dropWhile_ended (by simpa using ended)] at left
        split at read
        next => cases read
        next =>
          rw [left] at read
          exact spellsExponent_of_finishFloat read

theorem spellsTail_of_finishNumber (read : finishNumber negative significand text = .ok (number, rest)) :
    SpellsTail text rest := by
  unfold finishNumber at read
  split at read
  next =>
    cases read
    exact .exponent (.none _)
  next c after =>
    split at read
    next point =>
      subst point
      exact spellsTail_of_readFraction read
    next =>
      split at read
      next isLetter => exact .exponent (.power isLetter (spellsPower_of_readExponent read))
      next =>
        cases read
        exact .exponent (.none _)

theorem spellsTail_of_finishLongNumber (read : finishLongNumber negative significand text = .ok (number, rest)) :
    SpellsTail (text.dropWhile Char.isDigit) rest := by
  unfold finishLongNumber at read
  dsimp only at read
  split at read
  next after shape =>
    rw [shape]
    exact spellsTail_of_readFraction read
  next => exact .exponent (spellsExponent_of_finishFloat read)

theorem exists_numeral_of_readNumber (read : readNumber negative text = .ok (number, rest)) :
    ∃ numeral : Numeral, numeral.negative = negative ∧ text = numeral.whole ++ (numeral.tail ++ rest) := by
  unfold readNumber at read
  split at read
  next => cases read
  next c after =>
    split at read
    next zero =>
      subst zero
      split at read
      next => cases read
      next => exact (spellsTail_of_finishNumber read).exists_zero negative
    next noZero =>
      split at read
      next isDigit =>
        have left := dropWhile_accumulate maxSignificand 0 (c :: after)
        rw [List.dropWhile_cons_of_pos isDigit] at left
        dsimp only at read
        split at read
        next =>
          have tail := spellsTail_of_finishLongNumber read
          rw [left] at tail
          exact tail.exists_digits negative noZero isDigit
        next ended =>
          have tail := spellsTail_of_finishNumber read
          rw [dropWhile_ended (by simpa using ended)] at left
          rw [left] at tail
          exact tail.exists_digits negative noZero isDigit
      next => cases read

end Numbers

/-! ## Numbers that are read over -/

theorem spellsDigits_of_skipDigits (skipped : skipDigits text = .ok rest) : SpellsDigits text rest := by
  unfold skipDigits at skipped
  split at skipped
  next digit =>
    cases skipped
    exact spellsDigits_dropWhile digit
  next => cases skipped

theorem spellsPower_of_skipExponent (skipped : skipExponent text = .ok rest) : SpellsPower text rest := by
  unfold skipExponent at skipped
  extract_lets digits at skipped
  obtain ⟨sign, isSign, signed⟩ : ∃ sign ∈ [[], ['+'], ['-']], text = sign ++ digits := by
    unfold digits
    split
    · exact ⟨['+'], by simp, rfl⟩
    · exact ⟨['-'], by simp, rfl⟩
    · exact ⟨[], by simp, rfl⟩
  clear_value digits
  subst signed
  refine .signed isSign ?_
  cases digits with
  | nil => cases skipped
  | cons c digits =>
      dsimp only at skipped
      split at skipped
      next isDigit =>
        cases skipped
        have spelled : SpellsDigits (c :: digits) _ := spellsDigits_dropWhile isDigit
        rwa [List.dropWhile_cons_of_pos isDigit] at spelled
      next => cases skipped

theorem spellsTail_of_skipFraction (skipped : skipFraction text = .ok rest) : SpellsTail text rest := by
  unfold skipFraction at skipped
  split at skipped
  next =>
    cases skipped
    exact .exponent (.none _)
  next c after =>
    split at skipped
    next point =>
      subst point
      obtain ⟨middle, digits, skipped⟩ := ok_of_bind skipped
      refine .fraction (spellsDigits_of_skipDigits digits) ?_
      split at skipped
      next =>
        cases skipped
        exact .none _
      next c after =>
        split at skipped
        next isLetter => exact .power isLetter (spellsPower_of_skipExponent skipped)
        next =>
          cases skipped
          exact .none _
    next =>
      split at skipped
      next isLetter => exact .exponent (.power isLetter (spellsPower_of_skipExponent skipped))
      next =>
        cases skipped
        exact .exponent (.none _)

theorem exists_numeral_of_skipNumber (negative : Bool) (skipped : skipNumber text = .ok rest) :
    ∃ numeral : Numeral, numeral.negative = negative ∧ text = numeral.whole ++ (numeral.tail ++ rest) := by
  unfold skipNumber at skipped
  split at skipped
  next => cases skipped
  next c after =>
    split at skipped
    next zero =>
      subst zero
      split at skipped
      next => cases skipped
      next => exact (spellsTail_of_skipFraction skipped).exists_zero negative
    next noZero =>
      split at skipped
      next isDigit => exact (spellsTail_of_skipFraction skipped).exists_digits negative noZero isDigit
      next => cases skipped

/-! ## Scalars -/

theorem text_of_readLetters {letters : List Char} {done : Unit} (read : readLetters letters text = .ok (done, rest)) :
    text = letters ++ rest := by
  induction letters generalizing text with
  | nil =>
      cases read
      rfl
  | cons letter letters ih =>
      cases text with
      | nil => cases read
      | cons c text =>
          unfold readLetters at read
          split at read
          next same => rw [same, List.cons_append, ih read]
          next => cases read

theorem spells_of_numeral {negative : Bool}
    (found : ∃ numeral : Numeral, numeral.negative = negative ∧ text = numeral.whole ++ (numeral.tail ++ rest)) :
    ∃ tree, Spells tree ((if negative then ['-'] else []) ++ text) rest := by
  obtain ⟨numeral, rfl, rfl⟩ := found
  have spelled := Spells.number numeral rest
  rw [Numeral.chars_eq, Numeral.sign, List.append_assoc, List.append_assoc] at spelled
  exact ⟨_, spelled⟩

theorem spells_of_word {c : Char} {letters : List Char} {tree : SyntaxTree}
    (spelled : ∀ rest, Spells tree (c :: letters ++ rest) rest) {word value : Json}
    (read : (readLetters letters text >>= fun found => .ok (word, found.2)) = Except.ok (value, rest)) :
    ∃ tree, Spells tree (c :: text) rest := by
  obtain ⟨_, lettersRead, read⟩ := ok_of_bind read
  cases read
  rw [text_of_readLetters lettersRead]
  exact ⟨tree, spelled _⟩

/-- A scalar that is read is spelled. -/
theorem spells_of_readScalar {c : Char} {value : Json} (read : readScalar c text = .ok (value, rest)) :
    ∃ tree, Spells tree (c :: text) rest := by
  unfold readScalar at read
  split at read
  next letter =>
    subst letter
    exact spells_of_word .null read
  next =>
  split at read
  next letter =>
    subst letter
    exact spells_of_word .true read
  next =>
  split at read
  next letter =>
    subst letter
    exact spells_of_word .false read
  next =>
  split at read
  next sign =>
    obtain ⟨_, numberRead, read⟩ := ok_of_bind read
    cases read
    rw [sign]
    exact spells_of_numeral (exists_numeral_of_readNumber numberRead)
  next =>
  split at read
  next =>
    obtain ⟨_, numberRead, read⟩ := ok_of_bind read
    cases read
    exact spells_of_numeral (exists_numeral_of_readNumber numberRead)
  next =>
  split at read
  next quote =>
    obtain ⟨_, stringRead, read⟩ := ok_of_bind read
    cases read
    rw [quote]
    exact ⟨_, .string (units_of_readString stringRead)⟩
  next => cases read

theorem spells_of_skipScalar {c : Char} (skipped : skipScalar c text = .ok rest) :
    ∃ tree, Spells tree (c :: text) rest := by
  unfold skipScalar at skipped
  split at skipped
  next sign =>
    rw [sign]
    exact spells_of_numeral (exists_numeral_of_skipNumber true skipped)
  next =>
  split at skipped
  next => exact spells_of_numeral (exists_numeral_of_skipNumber false skipped)
  next =>
  split at skipped
  next quote =>
    obtain ⟨units, spelled⟩ := exists_units_of_skipString skipped
    rw [quote]
    exact ⟨_, .string spelled⟩
  next =>
    obtain ⟨_, read, skipped⟩ := ok_of_bind skipped
    cases skipped
    exact spells_of_readScalar read

end FilterSql.Json
