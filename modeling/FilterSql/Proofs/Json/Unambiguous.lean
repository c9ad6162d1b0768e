import FilterSql.Proofs.Json.Spelled

/-!
# One tree for each text

A text is the spelling of one tree at most. A number ends where nothing follows that would go on with it, and everything
else is told by its first character.
-/

set_option autoImplicit false

namespace FilterSql.Json

variable {text rest behind : List Char}

/-! ## Units -/

/-- The units of a character are told apart from what follows them. -/
theorem unitsOf_append_inj {c d : Char} {units others : List UInt16}
    (same : unitsOf c ++ units = unitsOf d ++ others) : c = d ∧ units = others := by
  have valid := toNat_valid c
  have validOther := toNat_valid d
  unfold unitsOf at same
  split at same
  next small =>
    split at same
    next smallOther =>
      obtain ⟨unit, tail⟩ := List.cons.inj same
      exact ⟨Char.toNat_inj.mp ((ofNat_eq_iff small smallOther).mp unit), tail⟩
    next great =>
      -- The first half of a pair is no character of its own.
      obtain ⟨unit, -⟩ := List.cons.inj same
      have number := (ofNat_eq_iff small (by omega)).mp unit
      omega
  next great =>
    split at same
    next smallOther =>
      obtain ⟨unit, -⟩ := List.cons.inj same
      have number := (ofNat_eq_iff (by omega) smallOther).mp unit
      omega
    next greatOther =>
      obtain ⟨first, tail⟩ := List.cons.inj same
      obtain ⟨second, tail⟩ := List.cons.inj tail
      have high := (ofNat_eq_iff (by omega) (by omega)).mp first
      have low := (ofNat_eq_iff (by omega) (by omega)).mp second
      exact ⟨Char.toNat_inj.mp (by omega), tail⟩

theorem flatMap_unitsOf_inj {chars others : List Char} (same : chars.flatMap unitsOf = others.flatMap unitsOf) :
    chars = others := by
  induction chars generalizing others with
  | nil =>
      cases others with
      | nil => rfl
      | cons d others =>
          rw [List.flatMap_cons, unitsOf] at same
          split at same <;> cases same
  | cons c chars ih =>
      cases others with
      | nil =>
          rw [List.flatMap_cons, unitsOf] at same
          split at same <;> cases same
      | cons d others =>
          obtain ⟨rfl, tail⟩ := unitsOf_append_inj same
          rw [ih tail]

/-- A text is told by its units. -/
theorem unitsOfText_inj {name other : String} : unitsOfText name = unitsOfText other ↔ name = other := by
  constructor
  · intro same
    exact String.toList_inj.mp (flatMap_unitsOf_inj same)
  · intro same
    rw [same]

theorem SpellsUnits.unique {units others : List UInt16} (spelled : SpellsUnits units text rest)
    (spelledOther : SpellsUnits others text behind) : units = others ∧ rest = behind := by
  induction spelled generalizing others with
  | close rest =>
      cases spelledOther with
      | close _ => exact ⟨rfl, rfl⟩
      | plain noQuote _ _ _ => exact absurd rfl noQuote
  | plain noQuote noEscape _ _ ih =>
      cases spelledOther with
      | close _ => exact absurd rfl noQuote
      | plain _ _ _ following =>
          obtain ⟨rfl, rfl⟩ := ih following
          exact ⟨rfl, rfl⟩
      | letter _ _ => exact absurd rfl noEscape
      | code _ _ _ _ _ => exact absurd rfl noEscape
  | letter isLetter _ ih =>
      cases spelledOther with
      | plain _ noEscape _ _ => exact absurd rfl noEscape
      | letter isLetterToo following =>
          obtain rfl := Option.some.inj (isLetter.symm.trans isLetterToo)
          obtain ⟨rfl, rfl⟩ := ih following
          exact ⟨rfl, rfl⟩
      | code _ _ _ _ _ => cases isLetter
  | code one two three four _ ih =>
      cases spelledOther with
      | plain _ noEscape _ _ => exact absurd rfl noEscape
      | letter isLetter _ => cases isLetter
      | code oneToo twoToo threeToo fourToo following =>
          obtain rfl := Option.some.inj (one.symm.trans oneToo)
          obtain rfl := Option.some.inj (two.symm.trans twoToo)
          obtain rfl := Option.some.inj (three.symm.trans threeToo)
          obtain rfl := Option.some.inj (four.symm.trans fourToo)
          obtain ⟨rfl, rfl⟩ := ih following
          exact ⟨rfl, rfl⟩

/-! ## Numbers -/

theorem startsWithDigit_append {digits : List Char} (areDigits : Digits digits) (rest : List Char) :
    startsWithDigit (digits ++ rest) = true := by
  obtain ⟨some, each⟩ := areDigits
  cases digits with
  | nil => exact absurd rfl some
  | cons c digits => exact each c (.head _)

theorem digits_append_inj {digits others : List Char} (areDigits : ∀ c ∈ digits, c.isDigit = true)
    (areDigitsToo : ∀ c ∈ others, c.isDigit = true) (ended : startsWithDigit rest = false)
    (endedToo : startsWithDigit behind = false) (same : digits ++ rest = others ++ behind) :
    digits = others ∧ rest = behind := by
  induction digits generalizing others with
  | nil =>
      cases others with
      | nil => exact ⟨rfl, same⟩
      | cons d others =>
          rw [List.nil_append] at same
          rw [same, List.cons_append, startsWithDigit, areDigitsToo d (.head _)] at ended
          cases ended
  | cons c digits ih =>
      cases others with
      | nil =>
          rw [List.nil_append] at same
          rw [← same, List.cons_append, startsWithDigit, areDigits c (.head _)] at endedToo
          cases endedToo
      | cons d others =>
          obtain ⟨rfl, tail⟩ := List.cons.inj same
          obtain ⟨rfl, rest⟩ := ih (fun c member => areDigits c (.tail _ member))
            (fun c member => areDigitsToo c (.tail _ member)) tail
          exact ⟨rfl, rest⟩

theorem exponentSign_append_inj {sign other : List Char} (isSign : sign ∈ [[], ['+'], ['-']])
    (isSignToo : other ∈ [[], ['+'], ['-']]) (digit : startsWithDigit rest = true)
    (digitToo : startsWithDigit behind = true) (same : sign ++ rest = other ++ behind) :
    sign = other ∧ rest = behind := by
  have plus : ∀ chars, startsWithDigit ('+' :: chars) = false := fun _ => rfl
  have minus : ∀ chars, startsWithDigit ('-' :: chars) = false := fun _ => rfl
  simp only [List.mem_cons, List.not_mem_nil, or_false] at isSign isSignToo
  rcases isSign with rfl | rfl | rfl <;> rcases isSignToo with rfl | rfl | rfl <;> grind

namespace Numeral

/-- Behind the whole part and the fraction, an exponent is there if its letter is. -/
theorem exponent_append_inj {numeral other : Numeral} (ends : EndsNumber rest) (endsToo : EndsNumber behind)
    (same : numeral.exponent ++ rest = other.exponent ++ behind) :
    numeral.exponent = other.exponent ∧ rest = behind := by
  have noLetter : ∀ {letter : Char} {chars : List Char}, letter ∈ ['e', 'E'] → ¬EndsNumber (letter :: chars) :=
    fun isLetter ended => (ended _ rfl).2 (.tail _ isLetter)
  rcases numeral.exponentDigits with none | ⟨letter, isLetter, sign, isSign, digits, areDigits, written⟩
  · rcases other.exponentDigits with noneToo | ⟨letter, isLetter, sign, _, digits, _, written⟩
    · rw [none, noneToo] at same ⊢
      exact ⟨rfl, same⟩
    · rw [none, written] at same
      rw [List.nil_append] at same
      exact absurd (same ▸ ends) (noLetter isLetter)
  · rcases other.exponentDigits with none | ⟨letterToo, _, signToo, isSignToo, digitsToo, areDigitsToo, writtenToo⟩
    · rw [none, written] at same
      rw [List.nil_append] at same
      exact absurd (same.symm ▸ endsToo) (noLetter isLetter)
    · rw [written, writtenToo] at same ⊢
      simp only [List.cons_append, List.append_assoc, List.cons.injEq] at same
      obtain ⟨rfl, signed⟩ := same
      obtain ⟨rfl, unsigned⟩ := exponentSign_append_inj isSign isSignToo (startsWithDigit_append areDigits rest)
        (startsWithDigit_append areDigitsToo behind) signed
      obtain ⟨rfl, ended⟩ := digits_append_inj areDigits.2 areDigitsToo.2 ends.noDigit endsToo.noDigit unsigned
      exact ⟨rfl, ended⟩

theorem exponent_ended {numeral : Numeral} (ends : EndsNumber rest) :
    startsWithDigit (numeral.exponent ++ rest) = false := by
  rcases numeral.exponentDigits with none | ⟨letter, isLetter, sign, _, digits, _, written⟩
  · rw [none]
    exact ends.noDigit
  · simp only [List.mem_cons, List.not_mem_nil, or_false] at isLetter
    rw [written]
    rcases isLetter with rfl | rfl <;> rfl

theorem exponent_noPoint {numeral : Numeral} (ends : EndsNumber rest) (chars : List Char) :
    numeral.exponent ++ rest ≠ '.' :: chars := by
  intro same
  rcases numeral.exponentDigits with none | ⟨letter, isLetter, sign, _, digits, _, written⟩
  · rw [none, List.nil_append] at same
    subst same
    exact (ends _ rfl).2 (.head _)
  · rw [written] at same
    obtain ⟨rfl, -⟩ := List.cons.inj same
    simp at isLetter

theorem fraction_append_inj {numeral other : Numeral} (ends : EndsNumber rest) (endsToo : EndsNumber behind)
    (same : numeral.fraction ++ (numeral.exponent ++ rest) = other.fraction ++ (other.exponent ++ behind)) :
    numeral.fraction = other.fraction ∧ numeral.exponent ++ rest = other.exponent ++ behind := by
  rcases numeral.fractionDigits with none | ⟨digits, areDigits, written⟩
  · rcases other.fractionDigits with noneToo | ⟨digits, _, written⟩
    · rw [none, noneToo] at same ⊢
      exact ⟨rfl, same⟩
    · rw [none, written] at same
      exact absurd same (exponent_noPoint ends _)
  · rcases other.fractionDigits with none | ⟨digitsToo, areDigitsToo, writtenToo⟩
    · rw [none, written] at same
      exact absurd same.symm (exponent_noPoint endsToo _)
    · rw [written, writtenToo] at same ⊢
      obtain ⟨rfl, ended⟩ := digits_append_inj areDigits.2 areDigitsToo.2 (exponent_ended ends) (exponent_ended endsToo)
        (List.cons.inj same).2
      exact ⟨rfl, ended⟩

theorem sign_append_inj {numeral other : Numeral}
    (same : numeral.sign ++ (numeral.whole ++ rest) = other.sign ++ (other.whole ++ behind)) :
    numeral.negative = other.negative ∧ numeral.whole ++ rest = other.whole ++ behind := by
  have digit := startsWithDigit_append numeral.wholeDigits rest
  have digitToo := startsWithDigit_append other.wholeDigits behind
  unfold sign at same
  cases negative : numeral.negative <;> cases negativeToo : other.negative <;> rw [negative, negativeToo] at same
  · exact ⟨rfl, same⟩
  · rw [show numeral.whole ++ rest = '-' :: (other.whole ++ behind) from same] at digit
    cases digit
  · rw [show other.whole ++ behind = '-' :: (numeral.whole ++ rest) from same.symm] at digitToo
    cases digitToo
  · exact ⟨rfl, (List.cons.inj same).2⟩

theorem ext_parts {numeral other : Numeral} (negative : numeral.negative = other.negative)
    (whole : numeral.whole = other.whole) (fraction : numeral.fraction = other.fraction)
    (exponent : numeral.exponent = other.exponent) : numeral = other := by
  cases numeral
  cases other
  cases negative
  cases whole
  cases fraction
  cases exponent
  rfl

theorem chars_append_inj {numeral other : Numeral} (ends : EndsNumber rest) (endsToo : EndsNumber behind)
    (same : numeral.chars ++ rest = other.chars ++ behind) : numeral = other ∧ rest = behind := by
  simp only [chars_eq, List.append_assoc] at same
  obtain ⟨negative, same⟩ := Numeral.sign_append_inj same
  obtain ⟨whole, same⟩ := digits_append_inj numeral.wholeDigits.2 other.wholeDigits.2 (numeral.tail_ended ends)
    (other.tail_ended endsToo) same
  unfold tail at same
  simp only [List.append_assoc] at same
  obtain ⟨fraction, same⟩ := fraction_append_inj ends endsToo same
  obtain ⟨exponent, same⟩ := exponent_append_inj ends endsToo same
  exact ⟨ext_parts negative whole fraction exponent, same⟩

end Numeral

/-! ## Blanks and separators -/

theorem Blank.unique {c d : Char} (blank : Blank text (c :: rest)) (noBlank : isBlank c = false)
    (blankToo : Blank text (d :: behind)) (noBlankToo : isBlank d = false) : c :: rest = d :: behind := by
  rw [← blank.skipBlank_cons noBlank, blankToo.skipBlank_cons noBlankToo]

theorem Separated.unique {first : Bool} {c d : Char} (separated : Separated first text (c :: rest))
    (noBlank : isBlank c = false) (separatedToo : Separated first text (d :: behind)) (noBlankToo : isBlank d = false) :
    c :: rest = d :: behind := by
  cases separated with
  | start blank =>
      cases separatedToo with
      | start blankToo => exact blank.unique noBlank blankToo noBlankToo
  | comma before after =>
      cases separatedToo with
      | comma beforeToo afterToo =>
          obtain ⟨-, rfl⟩ := List.cons.inj (before.unique rfl beforeToo rfl)
          exact after.unique noBlank afterToo noBlankToo

/-- What stands before an element or a member is not what stands before a closing bracket. -/
theorem Separated.not_blank {first : Bool} {c d : Char} (separated : Separated first text (c :: rest))
    (noBlank : isBlank c = false) (blank : Blank text (d :: behind)) (noBlankToo : isBlank d = false)
    (noComma : d ≠ ',') : c = d := by
  cases separated with
  | start blankToo => exact (List.cons.inj (blankToo.unique noBlank blank noBlankToo)).1
  | comma before _ => exact absurd (List.cons.inj (before.unique rfl blank noBlankToo)).1.symm noComma

/-! ## Values -/

/-- What the first character of a value tells of it. -/
inductive Kind where
  | null
  | truth (value : Bool)
  | number
  | string
  | list
  | object

def SyntaxTree.kind : SyntaxTree → Kind
  | null => .null
  | bool value => .truth value
  | number _ => .number
  | string _ => .string
  | list _ => .list
  | object _ => .object

def kindOf (c : Char) : Kind :=
  if c = 'n' then .null
  else if c = 't' then .truth true
  else if c = 'f' then .truth false
  else if c = '"' then .string
  else if c = '[' then .list
  else if c = '\x7b' then .object
  else .number

theorem kindOf_of_starts {c : Char} (starts : c = '-' ∨ c.isDigit = true) : kindOf c = .number := by
  simp [kindOf, ne_of_starts starts]

theorem Spells.exists_head {tree : SyntaxTree} (spelled : Spells tree text rest) :
    ∃ c after, text = c :: after ∧ isBlank c = Bool.false ∧ c ≠ ']' ∧ tree.kind = kindOf c := by
  cases spelled with
  | null rest => exact ⟨'n', _, rfl, rfl, by decide, rfl⟩
  | true rest => exact ⟨'t', _, rfl, rfl, by decide, rfl⟩
  | false rest => exact ⟨'f', _, rfl, rfl, by decide, rfl⟩
  | number numeral rest =>
      obtain ⟨c, after, shape, starts, -⟩ := numeral.exists_readScalar rest
      exact ⟨c, after, shape, noBlank_of_starts starts, ne_of_starts starts (by decide) rfl,
        (kindOf_of_starts starts).symm⟩
  | string _ => exact ⟨'"', _, rfl, rfl, by decide, rfl⟩
  | list _ => exact ⟨'[', _, rfl, rfl, by decide, rfl⟩
  | object _ => exact ⟨'\x7b', _, rfl, rfl, by decide, rfl⟩

theorem Spells.kind_eq {tree other : SyntaxTree} (spelled : Spells tree text rest)
    (spelledToo : Spells other text behind) : tree.kind = other.kind := by
  obtain ⟨c, after, shape, -, -, kind⟩ := spelled.exists_head
  obtain ⟨d, afterToo, shapeToo, -, -, kindToo⟩ := spelledToo.exists_head
  obtain ⟨rfl, -⟩ := List.cons.inj (shape.symm.trans shapeToo)
  exact kind.trans kindToo.symm

/-- The characters of a tree that is written in one way only. -/
def SyntaxTree.chars? : SyntaxTree → Option (List Char)
  | null => some ['n', 'u', 'l', 'l']
  | bool true => some ['t', 'r', 'u', 'e']
  | bool false => some ['f', 'a', 'l', 's', 'e']
  | number numeral => some numeral.chars
  | _ => none

theorem spells_chars_iff {tree : SyntaxTree} {chars : List Char} (written : tree.chars? = some chars) :
    Spells tree text rest ↔ text = chars ++ rest := by
  constructor
  · intro spelled
    cases spelled <;> cases written <;> rfl
  · intro shape
    subst shape
    cases tree with
    | null =>
        cases written
        exact .null rest
    | bool value =>
        cases value with
        | true =>
            cases written
            exact .true rest
        | false =>
            cases written
            exact .false rest
    | number numeral =>
        cases written
        exact .number numeral rest
    | _ => cases written

mutual

theorem Spells.unique {tree : SyntaxTree} {text rest : List Char} : Spells tree text rest →
    ∀ {other : SyntaxTree} {behind : List Char}, Spells other text behind → EndsNumber rest → EndsNumber behind →
      tree = other ∧ rest = behind
  | .null _, other, _, spelledToo, _, _ => by
      have kind := (Spells.null _).kind_eq spelledToo
      cases other with
      | null => exact ⟨rfl, List.append_cancel_left ((spells_chars_iff rfl).mp spelledToo)⟩
      | _ => cases kind
  | .true _, other, _, spelledToo, _, _ => by
      have kind := (Spells.true _).kind_eq spelledToo
      cases other with
      | bool value =>
          cases kind
          exact ⟨rfl, List.append_cancel_left ((spells_chars_iff rfl).mp spelledToo)⟩
      | _ => cases kind
  | .false _, other, _, spelledToo, _, _ => by
      have kind := (Spells.false _).kind_eq spelledToo
      cases other with
      | bool value =>
          cases kind
          exact ⟨rfl, List.append_cancel_left ((spells_chars_iff rfl).mp spelledToo)⟩
      | _ => cases kind
  | .number numeral _, other, _, spelledToo, ends, endsToo => by
      have kind := (Spells.number numeral _).kind_eq spelledToo
      cases other with
      | number numeralToo =>
          obtain ⟨rfl, same⟩ := Numeral.chars_append_inj ends endsToo ((spells_chars_iff rfl).mp spelledToo)
          exact ⟨rfl, same⟩
      | _ => cases kind
  | .string units, other, _, spelledToo, _, _ => by
      have kind := (Spells.string units).kind_eq spelledToo
      cases other with
      | string _ =>
          cases spelledToo with
          | string unitsToo =>
              obtain ⟨rfl, same⟩ := units.unique unitsToo
              exact ⟨rfl, same⟩
      | _ => cases kind
  | .list items, other, _, spelledToo, _, _ => by
      have kind := (Spells.list items).kind_eq spelledToo
      cases other with
      | list _ =>
          cases spelledToo with
          | list itemsToo =>
              obtain ⟨rfl, same⟩ := items.unique itemsToo
              exact ⟨rfl, same⟩
      | _ => cases kind
  | .object members, other, _, spelledToo, _, _ => by
      have kind := (Spells.object members).kind_eq spelledToo
      cases other with
      | object _ =>
          cases spelledToo with
          | object membersToo =>
              obtain ⟨rfl, same⟩ := members.unique membersToo
              exact ⟨rfl, same⟩
      | _ => cases kind

theorem SpellsItems.unique {first : Bool} {items : List SyntaxTree} {text rest : List Char} :
    SpellsItems first items text rest → ∀ {others : List SyntaxTree} {behind : List Char},
      SpellsItems first others text behind → items = others ∧ rest = behind
  | .close blank, _, _, spelledToo => by
      cases spelledToo with
      | close blankToo => exact ⟨rfl, (List.cons.inj (blank.unique rfl blankToo rfl)).2⟩
      | item separated tree _ =>
          obtain ⟨c, after, rfl, noBlank, noClose, -⟩ := tree.exists_head
          exact absurd (separated.not_blank noBlank blank rfl (by decide)) noClose
  | .item separated tree others, _, _, spelledToo => by
      obtain ⟨c, after, rfl, noBlank, noClose, -⟩ := tree.exists_head
      cases spelledToo with
      | close blank => exact absurd (separated.not_blank noBlank blank rfl (by decide)) noClose
      | item separatedToo treeToo othersToo =>
          obtain ⟨d, afterToo, rfl, noBlankToo, -, -⟩ := treeToo.exists_head
          obtain ⟨rfl, rfl⟩ := List.cons.inj (separated.unique noBlank separatedToo noBlankToo)
          obtain ⟨rfl, rfl⟩ := tree.unique treeToo others.endsNumber othersToo.endsNumber
          obtain ⟨rfl, same⟩ := others.unique othersToo
          exact ⟨rfl, same⟩

theorem SpellsMembers.unique {first : Bool} {members : List (List UInt16 × SyntaxTree)} {text rest : List Char} :
    SpellsMembers first members text rest → ∀ {others : List (List UInt16 × SyntaxTree)} {behind : List Char},
      SpellsMembers first others text behind → members = others ∧ rest = behind
  | .close blank, _, _, spelledToo => by
      cases spelledToo with
      | close blankToo => exact ⟨rfl, (List.cons.inj (blank.unique rfl blankToo rfl)).2⟩
      | member separated _ _ _ _ _ => cases separated.not_blank rfl blank rfl (by decide)
  | .member separated named colon value tree others, _, _, spelledToo => by
      cases spelledToo with
      | close blank => cases separated.not_blank rfl blank rfl (by decide)
      | member separatedToo namedToo colonToo valueToo treeToo othersToo =>
          obtain ⟨-, rfl⟩ := List.cons.inj (separated.unique rfl separatedToo rfl)
          obtain ⟨rfl, rfl⟩ := named.unique namedToo
          obtain ⟨-, rfl⟩ := List.cons.inj (colon.unique rfl colonToo rfl)
          obtain ⟨c, after, rfl, noBlank, -, -⟩ := tree.exists_head
          obtain ⟨d, afterToo, rfl, noBlankToo, -, -⟩ := treeToo.exists_head
          obtain ⟨rfl, rfl⟩ := List.cons.inj (value.unique noBlank valueToo noBlankToo)
          obtain ⟨rfl, rfl⟩ := tree.unique treeToo others.endsNumber othersToo.endsNumber
          obtain ⟨rfl, same⟩ := others.unique othersToo
          exact ⟨rfl, same⟩

end

/-- A text is the spelling of one tree at most. -/
theorem SpelledAs.unique {tree other : SyntaxTree} (spelled : SpelledAs tree text) (spelledToo : SpelledAs other text) :
    tree = other := by
  obtain ⟨start, behind, before, spells, after⟩ := spelled
  obtain ⟨startToo, behindToo, beforeToo, spellsToo, afterToo⟩ := spelledToo
  obtain ⟨c, inner, rfl, noBlank, -, -⟩ := spells.exists_head
  obtain ⟨d, innerToo, rfl, noBlankToo, -, -⟩ := spellsToo.exists_head
  obtain ⟨rfl, rfl⟩ := List.cons.inj (before.unique noBlank beforeToo noBlankToo)
  exact (spells.unique spellsToo (after.endsNumber endsNumber_nil) (afterToo.endsNumber endsNumber_nil)).1

end FilterSql.Json
