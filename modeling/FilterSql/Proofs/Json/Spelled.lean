import FilterSql.Json.Reader
import FilterSql.Proofs.Json.Numeral

/-!
# Reading spellings

What stands between the values of a text is read however it is written: blanks, separators, and keys of plain
characters, some of which may be escaped.
-/

set_option autoImplicit false

namespace FilterSql.Json

variable {text middle rest : List Char}

/-! ## Blanks and separators -/

theorem Blank.skipBlank_eq (blank : Blank text rest) : skipBlank text = skipBlank rest := by
  induction blank with
  | none text => rfl
  | one isBlank _ ih => rw [skipBlank, List.dropWhile_cons_of_pos isBlank, ← ih, skipBlank]

/-- Blanks end where another character stands. -/
theorem Blank.skipBlank_cons {c : Char} (blank : Blank text (c :: rest)) (other : isBlank c = false) :
    skipBlank text = c :: rest := by
  rw [blank.skipBlank_eq, skipBlank, List.dropWhile_cons_of_neg (by simp [other])]

theorem readColon_of_blank (blank : Blank text (':' :: rest)) : readColon text = .ok rest := by
  rw [readColon, blank.skipBlank_cons rfl]
  rfl

theorem nextMember_of_close {first : Bool} (blank : Blank text ('\x7d' :: rest)) :
    nextMember first text = .ok (false, '\x7d' :: rest) := by
  rw [nextMember, blank.skipBlank_cons rfl]
  rfl

theorem nextMember_of_separated {first : Bool} (separated : Separated first text ('"' :: rest)) :
    nextMember first text = .ok (true, rest) := by
  cases separated with
  | start blank =>
      rw [nextMember, blank.skipBlank_cons rfl]
      rfl
  | comma before after =>
      rw [nextMember, before.skipBlank_cons rfl]
      simp [after.skipBlank_cons rfl]

/-! ## Keys -/

/-- The units of a text. -/
def unitsOfText (text : String) : List UInt16 :=
  text.toList.flatMap unitsOf

/-- The characters are of ASCII. -/
def Plain (chars : List Char) : Prop :=
  ∀ c ∈ chars, c.toNat < 0x80

theorem unitsOf_plain {c : Char} (plain : c.toNat < 0x80) : unitsOf c = [.ofNat c.toNat] := by
  rw [unitsOf, if_pos (by omega)]

theorem ofNat_eq_iff {m n : Nat} (small : m < 0x10000) (other : n < 0x10000) :
    UInt16.ofNat m = UInt16.ofNat n ↔ m = n := by
  rw [← UInt16.toNat_inj, UInt16.toNat_ofNat', UInt16.toNat_ofNat']
  omega

theorem toNat_valid (c : Char) : c.toNat < 0xD800 ∨ 0xDFFF < c.toNat ∧ c.toNat < 0x110000 := by
  have valid := c.valid
  simp only [UInt32.isValidChar, Nat.isValidChar] at valid
  change c.val.toNat < _ ∨ _ < c.val.toNat ∧ c.val.toNat < _
  omega

/-- Where plain characters are spelled, the unit of a character is that of the first of them. -/
theorem plain_of_unitsOf {c : Char} {units : List UInt16} {chars : List Char} (plain : Plain chars)
    (same : unitsOf c ++ units = chars.flatMap unitsOf) :
    ∃ others, chars = c :: others ∧ units = others.flatMap unitsOf := by
  cases chars with
  | nil =>
      unfold unitsOf at same
      split at same <;> cases same
  | cons head others =>
      have low := plain head (.head _)
      rw [List.flatMap_cons, unitsOf_plain low] at same
      unfold unitsOf at same
      split at same
      next small =>
        obtain ⟨unit, rest⟩ := List.cons.inj same
        have number := (ofNat_eq_iff small (by omega)).mp unit
        exact ⟨others, by rw [Char.toNat_inj.mp number], rest⟩
      next great =>
        -- The first half of a pair is no plain character.
        obtain ⟨unit, -⟩ := List.cons.inj same
        have bound := toNat_valid c
        have number := (ofNat_eq_iff (by omega) (by omega)).mp unit
        omega

theorem hexValue_lt {c : Char} {value : Nat} (digit : hexValue? c = some value) : value < 16 := by
  unfold hexValue? at digit
  split at digit
  next decimal =>
    have bound : c.toNat ≤ 57 := UInt32.le_iff_toNat_le.mp decimal.2
    cases digit
    omega
  next =>
    split at digit
    next small =>
      have bound : c.toNat ≤ 102 := UInt32.le_iff_toNat_le.mp small.2
      cases digit
      omega
    next =>
      split at digit
      next great =>
        have bound : c.toNat ≤ 70 := UInt32.le_iff_toNat_le.mp great.2
        cases digit
        omega
      next => cases digit

theorem readHex_of_hexValue {first second third fourth : Char} {a b c d : Nat} (one : hexValue? first = some a)
    (two : hexValue? second = some b) (three : hexValue? third = some c) (four : hexValue? fourth = some d) :
    readHex (first :: second :: third :: fourth :: rest) = .ok (16 * (16 * (16 * a + b) + c) + d, rest) := by
  simp [readHex, one, two, three, four]

/-- A code is read as the plain character that it is of. -/
theorem readCodePoint_plain {first second third fourth c : Char} {a b d e : Nat} (one : hexValue? first = some a)
    (two : hexValue? second = some b) (three : hexValue? third = some d) (four : hexValue? fourth = some e)
    (plain : c.toNat < 0x80) (same : UInt16.ofNat (16 * (16 * (16 * a + b) + d) + e) = .ofNat c.toNat) :
    readCodePoint (first :: second :: third :: fourth :: rest) = .ok (c, rest) := by
  have smallOne := hexValue_lt one
  have smallTwo := hexValue_lt two
  have smallThree := hexValue_lt three
  have smallFour := hexValue_lt four
  have number := (ofNat_eq_iff (by omega) (by omega)).mp same
  rw [readCodePoint, readHex_of_hexValue one two three four, number]
  have noSecond : ¬(0xDC00 ≤ c.toNat ∧ c.toNat ≤ 0xDFFF) := by omega
  have noFirst : c.toNat < 0xD800 ∨ 0xDBFF < c.toNat := by omega
  simp [bind, Except.bind, noSecond, noFirst]

theorem readStringChars_plain {units : List UInt16} (spelled : SpellsUnits units text rest) {chars : List Char}
    (plain : Plain chars) (same : units = chars.flatMap unitsOf) {fuel : Nat} (enough : text.length < fuel) :
    readStringChars fuel text = .ok (chars, rest) := by
  induction spelled generalizing chars fuel with
  | close rest =>
      obtain ⟨fuel, rfl⟩ := Nat.exists_eq_add_one_of_ne_zero (Nat.ne_zero_of_lt enough)
      cases chars with
      | nil => rfl
      | cons c chars =>
          rw [List.flatMap_cons, unitsOf_plain (plain c (.head _))] at same
          cases same
  | plain noQuote noEscape printable _ ih =>
      obtain ⟨fuel, rfl⟩ := Nat.exists_eq_add_one_of_ne_zero (Nat.ne_zero_of_lt enough)
      obtain ⟨others, rfl, units⟩ := plain_of_unitsOf plain same
      have read := ih (fun c member => plain c (.tail _ member)) units (Nat.lt_of_succ_lt_succ enough)
      simp [readStringChars, noQuote, readStringChar, noEscape, Nat.not_lt.mpr printable, read, bind, Except.bind]
  | @letter letter c _ _ _ isLetter _ ih =>
      obtain ⟨fuel, rfl⟩ := Nat.exists_eq_add_one_of_ne_zero (Nat.ne_zero_of_lt enough)
      obtain ⟨others, rfl, units⟩ := plain_of_unitsOf plain same
      have read := ih (fun c member => plain c (.tail _ member)) units
        (Nat.lt_of_succ_lt_succ (Nat.lt_of_succ_lt enough))
      have noCode : letter ≠ 'u' := by
        rintro rfl
        cases isLetter
      simp [readStringChars, readStringChar, noCode, isLetter, read, bind, Except.bind]
  | @code _ _ _ _ _ _ _ _ _ text _ one two three four _ ih =>
      obtain ⟨fuel, rfl⟩ := Nat.exists_eq_add_one_of_ne_zero (Nat.ne_zero_of_lt enough)
      cases chars with
      | nil => cases same
      | cons c others =>
          have low := plain c (.head _)
          rw [List.flatMap_cons, unitsOf_plain low] at same
          obtain ⟨unit, units⟩ := List.cons.inj same
          have shorter : text.length < fuel := by
            simp only [List.length_cons] at enough
            omega
          have read := ih (fun c member => plain c (.tail _ member)) units shorter
          have code : readCodePoint _ = .ok (c, text) := readCodePoint_plain one two three four low unit
          simp [readStringChars, readStringChar, code, read, bind, Except.bind]

theorem readString_plain {name : String} (plain : Plain name.toList)
    (spelled : SpellsUnits (unitsOfText name) text rest) :
    readString text = .ok (name, rest) := by
  rw [readString, readStringChars_plain spelled plain rfl (Nat.lt_succ_self _)]
  simp [bind, Except.bind]

/-! ## Lengths -/

theorem Blank.length_le (blank : Blank text rest) : rest.length ≤ text.length := by
  induction blank with
  | none text => exact Nat.le_refl _
  | one _ _ ih => exact Nat.le_succ_of_le ih

theorem Separated.length_le {first : Bool} (separated : Separated first text rest) : rest.length ≤ text.length := by
  cases separated with
  | start blank => exact blank.length_le
  | comma before after =>
      have outer := before.length_le
      have inner := after.length_le
      rw [List.length_cons] at outer
      omega

theorem SpellsUnits.length_lt {units : List UInt16} (spelled : SpellsUnits units text rest) :
    rest.length < text.length := by
  induction spelled with
  | close rest => exact Nat.lt_succ_self _
  | plain _ _ _ _ ih => exact Nat.lt_succ_of_lt ih
  | letter _ _ ih => exact Nat.lt_succ_of_lt (Nat.lt_succ_of_lt ih)
  | code _ _ _ _ _ ih =>
      simp only [List.length_cons]
      omega

mutual

theorem Spells.length_le {tree : SyntaxTree} {text rest : List Char} : Spells tree text rest → rest.length ≤ text.length
  | .null _ => (List.suffix_append _ _).length_le
  | .true _ => (List.suffix_append _ _).length_le
  | .false _ => (List.suffix_append _ _).length_le
  | .number _ _ => (List.suffix_append _ _).length_le
  | .string units => Nat.le_succ_of_le (Nat.le_of_lt units.length_lt)
  | .list items => Nat.le_succ_of_le items.length_le
  | .object members => Nat.le_succ_of_le (Nat.le_trans (Nat.le_add_left _ _) members.length_le)

theorem SpellsItems.length_le {first : Bool} {items : List SyntaxTree} {text rest : List Char} :
    SpellsItems first items text rest → rest.length ≤ text.length
  | .close blank => Nat.le_of_succ_le blank.length_le
  | .item separated tree others => Nat.le_trans others.length_le (Nat.le_trans tree.length_le separated.length_le)

theorem SpellsMembers.length_le {first : Bool} {members : List (List UInt16 × SyntaxTree)} {text rest : List Char} :
    SpellsMembers first members text rest → members.length + rest.length ≤ text.length
  | .close blank => by
      have closed := blank.length_le
      simp only [List.length_cons, List.length_nil] at closed ⊢
      omega
  | .member separated key colon value tree others => by
      have start := separated.length_le
      have named := key.length_lt
      have middle := colon.length_le
      have before := value.length_le
      have behind := tree.length_le
      have more := others.length_le
      simp only [List.length_cons] at start middle ⊢
      omega

end

/-! ## Members -/

theorem Blank.endsNumber (blank : Blank text rest) (ends : EndsNumber rest) : EndsNumber text := by
  cases blank with
  | none text => exact ends
  | one isBlank _ =>
      rintro c ⟨⟩
      simp only [Json.isBlank, Bool.or_eq_true, beq_iff_eq] at isBlank
      rcases isBlank with ((rfl | rfl) | rfl) | rfl <;> decide

theorem endsNumber_of_mark {c : Char} (mark : c ∈ [',', ']', '\x7d']) (behind : List Char) :
    EndsNumber (c :: behind) := by
  simp only [List.mem_cons, List.not_mem_nil, or_false] at mark
  intro _ head
  cases head
  rcases mark with rfl | rfl | rfl <;> decide

theorem SpellsItems.endsNumber {items : List SyntaxTree} (spelled : SpellsItems false items text rest) :
    EndsNumber text := by
  cases spelled with
  | close blank => exact blank.endsNumber (endsNumber_of_mark (by simp) _)
  | item separated _ _ =>
      cases separated with
      | comma before _ => exact before.endsNumber (endsNumber_of_mark (by simp) _)

theorem SpellsMembers.endsNumber {members : List (List UInt16 × SyntaxTree)}
    (spelled : SpellsMembers false members text rest) : EndsNumber text := by
  cases spelled with
  | close blank => exact blank.endsNumber (endsNumber_of_mark (by simp) _)
  | member separated _ _ _ _ _ =>
      cases separated with
      | comma before _ => exact before.endsNumber (endsNumber_of_mark (by simp) _)

section Members

variable {σ ε : Type} {key : ε → String} {tree : ε → SyntaxTree} {member : σ → String → Reader σ} {step : σ → ε → σ}
  {Free : σ → String → Prop}

/-- Entries are read one by one, each from the text after its key, where no earlier one has its key. -/
structure ReadsEntries (key : ε → String) (tree : ε → SyntaxTree) (member : σ → String → Reader σ) (step : σ → ε → σ)
    (Free : σ → String → Prop) : Prop where
  plain : ∀ entry, Plain (key entry).toList
  reads : ∀ {state entry colon value start behind}, Free state (key entry) → Blank colon (':' :: value) →
    Blank value start → Spells (tree entry) start behind → EndsNumber behind →
    member state (key entry) colon = .ok (step state entry, behind)
  keeps : ∀ {state entry name}, Free state name → key entry ≠ name → Free (step state entry) name

variable {entries : List ε} {state : σ}

theorem readMembers_spelled (reads : ReadsEntries key tree member step Free) (distinct : (entries.map key).Nodup)
    (free : ∀ entry ∈ entries, Free state (key entry)) {first : Bool}
    (spelled : SpellsMembers first (entries.map fun entry => (unitsOfText (key entry), tree entry)) text rest)
    {fuel : Nat} (enough : entries.length < fuel) :
    readMembers member fuel first state text = .ok (entries.foldl step state, rest) := by
  induction entries generalizing first state text fuel with
  | nil =>
      obtain ⟨fuel, rfl⟩ := Nat.exists_eq_add_one_of_ne_zero (Nat.ne_zero_of_lt enough)
      cases spelled with
      | close blank => simp [readMembers, nextMember_of_close blank, bind, Except.bind]
  | cons entry entries ih =>
      obtain ⟨fuel, rfl⟩ := Nat.exists_eq_add_one_of_ne_zero (Nat.ne_zero_of_lt enough)
      obtain ⟨new, distinct⟩ := List.nodup_cons.mp distinct
      cases spelled with
      | member separated named colon value spells others =>
          have read := reads.reads (free entry (.head _)) colon value spells others.endsNumber
          have stillFree : ∀ other ∈ entries, Free (step state entry) (key other) := by
            intro other later
            refine reads.keeps (free other (.tail _ later)) fun same => new ?_
            exact List.mem_map.mpr ⟨other, later, same.symm⟩
          have more := ih distinct stillFree others (Nat.lt_of_succ_lt_succ enough)
          simp [readMembers, nextMember_of_separated separated, readString_plain (reads.plain entry) named, read, more,
            bind, Except.bind]

theorem readObject_spelled (reads : ReadsEntries key tree member step Free) (distinct : (entries.map key).Nodup)
    (free : ∀ entry ∈ entries, Free state (key entry))
    (spelled : SpellsMembers true (entries.map fun entry => (unitsOfText (key entry), tree entry)) text rest) :
    readObject member state text = .ok (entries.foldl step state, rest) := by
  have bound := spelled.length_le
  rw [List.length_map] at bound
  exact readMembers_spelled reads distinct free spelled (by omega)

end Members

end FilterSql.Json
