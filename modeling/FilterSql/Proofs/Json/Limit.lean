import FilterSql.Json.Reader

/-!
# Faults for nesting

Of all that a JSON text is read with, only the reader of values knows of a limit on nesting. Words, strings, numbers and
separators have faults of their own, and none of these is about nesting.
-/

set_option autoImplicit false

namespace FilterSql.Json

variable {α β : Type}

/-- The result is no fault for the nesting of the text. -/
def NoLimitFault (result : Except Fault α) : Prop :=
  ∀ fault, result = .error fault → fault.reason ≠ .nestingLimit

theorem noLimitFault_ok (value : α) : NoLimitFault (.ok value : Except Fault α) := by
  intro fault failed
  cases failed

theorem noLimitFault_error {fault : Fault} (other : fault.reason ≠ .nestingLimit) :
    NoLimitFault (.error fault : Except Fault α) := by
  intro _ failed
  cases failed
  exact other

theorem NoLimitFault.bind {first : Except Fault α} {next : α → Except Fault β} (start : NoLimitFault first)
    (rest : ∀ value, first = .ok value → NoLimitFault (next value)) : NoLimitFault (first >>= next) := by
  cases first with
  | error fault => exact noLimitFault_error (start fault rfl)
  | ok value => exact rest value rfl

/-! ## Words and strings -/

theorem readLetters_noLimitFault (letters text : List Char) : NoLimitFault (readLetters letters text) := by
  induction letters generalizing text with
  | nil => exact noLimitFault_ok _
  | cons letter letters ih =>
      cases text with
      | nil => exact noLimitFault_error (by nofun)
      | cons c rest =>
          unfold readLetters
          split
          · exact ih rest
          · exact noLimitFault_error (by nofun)

theorem readHex_noLimitFault (text : List Char) : NoLimitFault (readHex text) := by
  unfold readHex
  dsimp only
  split
  · exact noLimitFault_ok _
  · split
    · exact noLimitFault_error (by nofun)
    · exact noLimitFault_error (by nofun)

theorem readMark_noLimitFault (mark : Char) {reason : Reason} (other : reason ≠ .nestingLimit) (text : List Char) :
    NoLimitFault (readMark mark reason text) := by
  unfold readMark
  split
  · exact noLimitFault_error (by nofun)
  · split
    · exact noLimitFault_ok _
    · exact noLimitFault_error other

theorem readCodePoint_noLimitFault (text : List Char) : NoLimitFault (readCodePoint text) := by
  refine (readHex_noLimitFault text).bind fun first _ => ?_
  obtain ⟨first, rest⟩ := first
  dsimp only
  split
  · exact noLimitFault_error (by nofun)
  · split
    · exact noLimitFault_ok _
    · refine (readMark_noLimitFault _ (by nofun) _).bind fun _ _ => ?_
      refine (readMark_noLimitFault _ (by nofun) _).bind fun _ _ => ?_
      refine (readHex_noLimitFault _).bind fun second _ => ?_
      obtain ⟨second, rest⟩ := second
      dsimp only
      split
      · exact noLimitFault_error (by nofun)
      · exact noLimitFault_ok _

theorem readStringChar_noLimitFault (c : Char) (rest : List Char) : NoLimitFault (readStringChar c rest) := by
  unfold readStringChar
  split
  · split
    · exact noLimitFault_error (by nofun)
    · split
      · exact readCodePoint_noLimitFault _
      · split
        · exact noLimitFault_ok _
        · exact noLimitFault_error (by nofun)
  · split
    · exact noLimitFault_error (by nofun)
    · exact noLimitFault_ok _

theorem readString_noLimitFault (text : List Char) : NoLimitFault (readString text) := by
  have chars : ∀ fuel text, NoLimitFault (readStringChars fuel text) := by
    intro fuel
    induction fuel with
    | zero => exact fun _ => noLimitFault_error (by nofun)
    | succ fuel ih =>
        intro text
        cases text with
        | nil => exact noLimitFault_error (by nofun)
        | cons c rest =>
            unfold readStringChars
            split
            · exact noLimitFault_ok _
            · exact (readStringChar_noLimitFault c rest).bind fun _ _ => (ih _).bind fun _ _ => noLimitFault_ok _
  exact (chars _ text).bind fun _ _ => noLimitFault_ok _

/-! ## Numbers -/

theorem makeFloat_noLimitFault (negative : Bool) (significand : Nat) (exponent : Int) (rest : List Char) :
    NoLimitFault (makeFloat negative significand exponent rest) := by
  unfold makeFloat
  split
  · exact noLimitFault_ok _
  · exact noLimitFault_error (by nofun)

theorem readExponent_noLimitFault (negative : Bool) (significand : Nat) (exponent : Int) (text : List Char) :
    NoLimitFault (readExponent negative significand exponent text) := by
  unfold readExponent
  split
  next down digits _ =>
  cases digits with
  | nil => exact noLimitFault_error (by nofun)
  | cons c digits =>
      dsimp only
      split
      · split
        · split
          · exact noLimitFault_error (by nofun)
          · exact noLimitFault_ok _
        · exact makeFloat_noLimitFault _ _ _ _
      · exact noLimitFault_error (by nofun)

theorem finishFloat_noLimitFault (negative : Bool) (significand : Nat) (exponent : Int) (text : List Char) :
    NoLimitFault (finishFloat negative significand exponent text) := by
  unfold finishFloat
  split
  · split
    · exact readExponent_noLimitFault _ _ _ _
    · exact makeFloat_noLimitFault _ _ _ _
  · exact makeFloat_noLimitFault _ _ _ _

theorem readFraction_noLimitFault (negative : Bool) (significand : Nat) (exponent : Int) (text : List Char) :
    NoLimitFault (readFraction negative significand exponent text) := by
  unfold readFraction
  dsimp only
  split
  · exact finishFloat_noLimitFault _ _ _ _
  · split
    · split <;> exact noLimitFault_error (by nofun)
    · exact finishFloat_noLimitFault _ _ _ _

theorem finishNumber_noLimitFault (negative : Bool) (significand : Nat) (text : List Char) :
    NoLimitFault (finishNumber negative significand text) := by
  unfold finishNumber
  split
  · exact noLimitFault_ok _
  · split
    · exact readFraction_noLimitFault _ _ _ _
    · split
      · exact readExponent_noLimitFault _ _ _ _
      · exact noLimitFault_ok _

theorem finishLongNumber_noLimitFault (negative : Bool) (significand : Nat) (text : List Char) :
    NoLimitFault (finishLongNumber negative significand text) := by
  unfold finishLongNumber
  dsimp only
  split
  · exact readFraction_noLimitFault _ _ _ _
  · exact finishFloat_noLimitFault _ _ _ _

theorem readNumber_noLimitFault (negative : Bool) (text : List Char) : NoLimitFault (readNumber negative text) := by
  unfold readNumber
  split
  · exact noLimitFault_error (by nofun)
  · split
    · split
      · exact noLimitFault_error (by nofun)
      · exact finishNumber_noLimitFault _ _ _
    · split
      · dsimp only
        split
        · exact finishLongNumber_noLimitFault _ _ _
        · exact finishNumber_noLimitFault _ _ _
      · exact noLimitFault_error (by nofun)

/-! ## Scalars and separators -/

theorem readScalar_noLimitFault (c : Char) (rest : List Char) : NoLimitFault (readScalar c rest) := by
  unfold readScalar
  split
  · exact (readLetters_noLimitFault _ rest).bind fun _ _ => noLimitFault_ok _
  · split
    · exact (readLetters_noLimitFault _ rest).bind fun _ _ => noLimitFault_ok _
    · split
      · exact (readLetters_noLimitFault _ rest).bind fun _ _ => noLimitFault_ok _
      · split
        · exact (readNumber_noLimitFault _ _).bind fun _ _ => noLimitFault_ok _
        · split
          · exact (readNumber_noLimitFault _ _).bind fun _ _ => noLimitFault_ok _
          · split
            · exact (readString_noLimitFault rest).bind fun _ _ => noLimitFault_ok _
            · exact noLimitFault_error (by nofun)

theorem readColon_noLimitFault (text : List Char) : NoLimitFault (readColon text) := by
  unfold readColon
  split
  · exact noLimitFault_error (by nofun)
  · split
    · exact noLimitFault_ok _
    · exact noLimitFault_error (by nofun)

theorem nextItem_noLimitFault (first : Bool) (text : List Char) : NoLimitFault (nextItem first text) := by
  unfold nextItem
  split
  · exact noLimitFault_error (by nofun)
  · split
    · exact noLimitFault_ok _
    · split
      · exact noLimitFault_ok _
      · split
        · split
          · exact noLimitFault_error (by nofun)
          · split
            · exact noLimitFault_error (by nofun)
            · exact noLimitFault_ok _
        · exact noLimitFault_error (by nofun)

theorem nextMember_noLimitFault (first : Bool) (text : List Char) : NoLimitFault (nextMember first text) := by
  unfold nextMember
  split
  · exact noLimitFault_error (by nofun)
  · split
    · exact noLimitFault_ok _
    · split
      · split
        · exact noLimitFault_ok _
        · exact noLimitFault_error (by nofun)
      · split
        · split
          · exact noLimitFault_error (by nofun)
          · split
            · exact noLimitFault_ok _
            · split <;> exact noLimitFault_error (by nofun)
        · exact noLimitFault_error (by nofun)

end FilterSql.Json
