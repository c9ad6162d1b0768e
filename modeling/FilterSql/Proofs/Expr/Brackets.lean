import FilterSql.Proofs.Expr.Nesting
import FilterSql.Proofs.Json.SyntaxTree

/-!
# The scan of any spelling

However a JSON text is written, and however deep it is nested, the scan of the raw text finds its nesting: no bracket
within a string counts and every other one does. The same is found byte by byte, as no byte of a longer character looks
like a bracket, a quote or a backslash.
-/

set_option autoImplicit false

namespace FilterSql.Expr

open Json

variable {text middle rest : List Char}

/-! ## Between brackets -/

theorem Reaches.trans {mode : ScanMode} (first : Reaches text .outside middle) (second : Reaches middle mode rest) :
    Reaches text mode rest := by
  intro limit depth
  rw [first limit depth, second limit depth]

theorem Reaches.plains {chars : List Char} (plain : ∀ c ∈ chars, isMark c = false) :
    Reaches (chars ++ rest) .outside rest := by
  induction chars with
  | nil => exact reaches_start rest
  | cons c chars ih =>
      obtain ⟨first, others⟩ := List.forall_mem_cons.mp plain
      exact ((reaches_start _).plain first).trans (ih others)

theorem blank_reaches (blank : Blank text rest) : Reaches text .outside rest := by
  induction blank with
  | none text => exact reaches_start text
  | one blank _ ih => exact ((reaches_start _).plain (not_isMark_of_isBlank blank)).trans ih

theorem separated_reaches {first : Bool} (separated : Separated first text rest) : Reaches text .outside rest := by
  cases separated with
  | start blank => exact blank_reaches blank
  | comma before after => exact ((blank_reaches before).plain rfl).trans (blank_reaches after)

theorem numeral_plain (numeral : Numeral) : ∀ c ∈ numeral.chars, isMark c = false := by
  have digits : ∀ {chars : List Char}, Digits chars → ∀ c ∈ chars, isMark c = false :=
    fun run c member => not_isMark_of_isDigit (run.2 c member)
  intro c member
  simp only [Numeral.chars, Numeral.sign, List.mem_append] at member
  rcases member with ((sign | whole) | fraction) | exponent
  · split at sign
    · obtain rfl := List.mem_singleton.mp sign
      rfl
    · cases sign
  · exact digits numeral.wholeDigits c whole
  · rcases numeral.fractionDigits with none | ⟨run, isRun, shape⟩
    · rw [none] at fraction
      cases fraction
    · rw [shape] at fraction
      rcases List.mem_cons.mp fraction with rfl | later
      · rfl
      · exact digits isRun c later
  · rcases numeral.exponentDigits with none | ⟨letter, letters, sign, signs, run, isRun, shape⟩
    · rw [none] at exponent
      cases exponent
    · rw [shape, List.mem_append, List.mem_cons] at exponent
      simp only [List.mem_cons, List.not_mem_nil, or_false] at letters signs
      rcases exponent with (rfl | inSign) | later
      · rcases letters with rfl | rfl <;> rfl
      · rcases signs with rfl | rfl | rfl
        · cases inSign
        · obtain rfl := List.mem_singleton.mp inSign
          rfl
        · obtain rfl := List.mem_singleton.mp inSign
          rfl
      · exact digits isRun c later

/-! ## Strings -/

theorem ne_of_hexValue {c : Char} {value : Nat} (digit : hexValue? c = some value) : c ≠ '"' ∧ c ≠ '\\' := by
  constructor <;> rintro rfl <;> cases digit

theorem units_reach {start : List Char} {units : List UInt16} (spells : SpellsUnits units text rest)
    (reaches : Reaches start .inString text) : Reaches start .outside rest := by
  -- By induction on the spelling: after each unit the scan is still in the string, and not behind a backslash.
  induction spells with
  | close rest => exact reaches.closingQuote
  | plain noQuote noEscape _ _ ih => exact ih (reaches.char noQuote noEscape)
  | letter _ _ ih => exact ih reaches.escape
  | code first second third fourth _ ih =>
      have one := ne_of_hexValue first
      have two := ne_of_hexValue second
      have three := ne_of_hexValue third
      have four := ne_of_hexValue fourth
      have digits := (((reaches.escape.char one.1 one.2).char two.1 two.2).char three.1 three.2).char four.1 four.2
      exact ih digits

/-! ## Values -/

mutual

theorem spells_weighs {tree : SyntaxTree} {text rest : List Char} :
    Spells tree text rest → Weighs text tree.nesting rest
  | .null _ => (Reaches.plains (by simp [isMark])).weighs
  | .true _ => (Reaches.plains (by simp [isMark])).weighs
  | .false _ => (Reaches.plains (by simp [isMark])).weighs
  | .number numeral _ => (Reaches.plains (numeral_plain numeral)).weighs
  | .string units => (units_reach units (reaches_start _).quote).weighs
  | .list items => (items_weigh items).bracket (.inl rfl) (.inl rfl)
  | .object members => (members_weigh members).bracket (.inr rfl) (.inr rfl)

theorem items_weigh {first : Bool} {items : List SyntaxTree} {text rest : List Char} :
    SpellsItems first items text rest → Weighs text (SyntaxTree.nestingOfItems items) (']' :: rest)
  | .close blank => (blank_reaches blank).weighs
  | .item separated tree items =>
      (separated_reaches separated).before ((spells_weighs tree).append (items_weigh items))

theorem members_weigh {first : Bool} {members : List (List UInt16 × SyntaxTree)} {text rest : List Char} :
    SpellsMembers first members text rest → Weighs text (SyntaxTree.nestingOfMembers members) ('\x7d' :: rest)
  | .close blank => (blank_reaches blank).weighs
  | .member separated key colon value tree members => by
      have named : Reaches _ .outside _ := units_reach key (separated_reaches separated).quote
      have reaches := ((named.trans (blank_reaches colon)).plain rfl).trans (blank_reaches value)
      exact reaches.before ((spells_weighs tree).append (members_weigh members))

end

/-! ## Bytes -/

theorem high_of_mem_utf8 {c : Char} (high : 0x80 ≤ c.toNat) {byte : UInt8} (member : byte ∈ String.utf8EncodeChar c) :
    0x80 ≤ (Char.ofUInt8 byte).toNat := by
  have continuing : ∀ value : Nat, 0x80 ≤ (UInt8.ofNat (value % 64 + 128)).toNat := by
    intro value
    rw [UInt8.toNat_ofNat']
    omega
  have value : (Char.ofUInt8 byte).toNat = byte.toNat := by rfl
  rw [value]
  have above : ¬ c.val.toNat ≤ 127 := Nat.not_le.mpr high
  unfold String.utf8EncodeChar at member
  dsimp only at member
  rw [if_neg above] at member
  split at member
  · rcases List.mem_pair.mp member with rfl | rfl
    · rw [UInt8.toNat_ofNat']
      omega
    · exact continuing _
  · split at member
    · simp only [List.mem_cons, List.not_mem_nil, or_false] at member
      rcases member with rfl | rfl | rfl
      · rw [UInt8.toNat_ofNat']
        omega
      · exact continuing _
      · exact continuing _
    · simp only [List.mem_cons, List.not_mem_nil, or_false] at member
      rcases member with rfl | rfl | rfl | rfl
      · rw [UInt8.toNat_ofNat']
        omega
      · exact continuing _
      · exact continuing _
      · exact continuing _

theorem utf8_of_low {c : Char} (low : c.toNat < 0x80) :
    (String.utf8EncodeChar c).map Char.ofUInt8 = [c] := by
  have value : c.val.toNat ≤ 127 := Nat.le_of_lt_succ low
  unfold String.utf8EncodeChar
  dsimp only
  rw [if_pos value, List.map_singleton, List.cons.injEq]
  refine ⟨?_, rfl⟩
  rw [← Char.toNat_inj]
  change (UInt8.ofNat c.val.toNat).toNat = c.val.toNat
  rw [UInt8.toNat_ofNat']
  omega

/-- The mode behind a character that is neither a quote nor a backslash. -/
def ScanMode.past : ScanMode → ScanMode
  | .escaped => .inString
  | mode => mode

theorem scan_high {limit depth : Nat} {c : Char} (high : 0x80 ≤ c.toNat) (mode : ScanMode) (rest : List Char) :
    scan limit mode depth (c :: rest) = scan limit mode.past depth rest := by
  have other : ∀ mark : Char, mark.toNat < 0x80 → c ≠ mark := by
    rintro mark low rfl
    omega
  have noQuote := other '"' (by decide)
  have noEscape := other '\\' (by decide)
  have noList := other '[' (by decide)
  have noObject := other '\x7b' (by decide)
  have noListEnd := other ']' (by decide)
  have noObjectEnd := other '\x7d' (by decide)
  cases mode <;> simp [scan, ScanMode.past, noQuote, noEscape, noList, noObject, noListEnd, noObjectEnd]

theorem scan_highs {limit depth : Nat} {chars : List Char} (some : chars ≠ [])
    (high : ∀ c ∈ chars, 0x80 ≤ c.toNat) (mode : ScanMode) (rest : List Char) :
    scan limit mode depth (chars ++ rest) = scan limit mode.past depth rest := by
  induction chars generalizing mode with
  | nil => exact absurd rfl some
  | cons c chars ih =>
      obtain ⟨first, others⟩ := List.forall_mem_cons.mp high
      rw [List.cons_append, scan_high first]
      cases chars with
      | nil => rfl
      | cons second chars =>
          rw [ih (List.cons_ne_nil _ _) others]
          cases mode <;> rfl

/-- The bytes of a text in UTF-8, each as the character of its number. -/
def bytesOf (text : String) : List Char :=
  text.toUTF8.data.toList.map Char.ofUInt8

theorem bytesOf_eq (text : String) :
    bytesOf text = text.toList.flatMap fun c => (String.utf8EncodeChar c).map Char.ofUInt8 := by
  unfold bytesOf
  rw [String.toUTF8, ← String.utf8Encode_toList, List.utf8Encode, List.data_toByteArray, List.map_flatMap]

theorem scan_bytesOf (limit : Nat) (mode : ScanMode) (depth : Nat) (chars : List Char) :
    scan limit mode depth (chars.flatMap fun c => (String.utf8EncodeChar c).map Char.ofUInt8) =
      scan limit mode depth chars := by
  induction chars generalizing mode depth with
  | nil => rfl
  | cons c chars ih =>
      rw [List.flatMap_cons]
      by_cases low : c.toNat < 0x80
      · rw [utf8_of_low low]
        cases mode <;> simp only [List.singleton_append, scan, ih]
      · have high := Nat.le_of_not_lt low
        rw [scan_highs, scan_high high, ih]
        · simp [String.utf8EncodeChar_ne_nil]
        · intro byte member
          obtain ⟨origin, inside, rfl⟩ := List.mem_map.mp member
          exact high_of_mem_utf8 high inside

/-! ## Whole texts -/

theorem scan_spelled {tree : SyntaxTree} {chars : List Char} (spelled : SpelledAs tree chars) (limit : Nat) :
    scan limit .outside 0 chars = true ↔ tree.nesting ≤ limit := by
  obtain ⟨start, behind, before, spells, after⟩ := spelled
  have ended : scan limit .outside 0 behind = true := by
    rw [blank_reaches after limit 0]
    rfl
  have weighed := (blank_reaches before).before (spells_weighs spells) limit 0 (Nat.zero_le limit)
  rw [weighed, ended, Nat.zero_add]
  exact and_iff_left rfl

/-- Every tree can be spelled, and however it is spelled, the scan finds out whether its nesting is within the limit. -/
theorem checkNesting_spelled (tree : SyntaxTree) (limit : Nat) :
    (∃ text : String, SpelledAs tree text.toList) ∧
      ∀ text : String, SpelledAs tree text.toList →
        checkNesting text limit = (if tree.nesting ≤ limit then .ok () else .error (.tooDeep limit)) ∧
          (scan limit .outside 0 (bytesOf text) = true ↔ tree.nesting ≤ limit) := by
  constructor
  · obtain ⟨chars, spelled⟩ := exists_spelledAs tree
    exact ⟨.ofList chars, by rwa [String.toList_ofList]⟩
  · intro text spelled
    have found := scan_spelled spelled limit
    constructor
    · unfold checkNesting
      simp only [found]
    · rw [bytesOf_eq, scan_bytesOf]
      exact found

/-- An object with two members of the same key, which is a bracket and a quote. The second replaces the first. -/
def twins : SyntaxTree :=
  .object [([91, 34], .list [.list []]), ([91, 34], .object [])]

def twinsText : String := "\x7b\"[\\\"\": [[]],\"\\u005B\\\"\":\x7b\x7d\x7d"

theorem spelledAs_twins : SpelledAs twins twinsText.toList := by
  have quote : ∀ rest, SpellsUnits (unitsOf '"' ++ []) ('\\' :: '"' :: '"' :: rest) rest :=
    fun rest => .letter rfl (.close rest)
  have plainKey : ∀ rest, SpellsUnits (unitsOf '[' ++ [34]) ('[' :: '\\' :: '"' :: '"' :: rest) rest :=
    fun rest => .plain (by decide) (by decide) (by decide) (quote rest)
  have codedKey : ∀ rest,
      SpellsUnits [91, 34] ('\\' :: 'u' :: '0' :: '0' :: '5' :: 'B' :: '\\' :: '"' :: '"' :: rest) rest :=
    fun rest => .code (by decide : hexValue? '0' = some 0) (by decide : hexValue? '0' = some 0)
      (by decide : hexValue? '5' = some 5) (by decide : hexValue? 'B' = some 11) (quote rest)
  have lists : ∀ rest, Spells (.list [.list []]) ('[' :: '[' :: ']' :: ']' :: rest) rest :=
    fun rest => .list (.item (.start (.none _)) (.list (.close (.none _))) (.close (.none _)))
  have chars : twinsText.toList =
      ['\x7b', '"', '[', '\\', '"', '"', ':', ' ', '[', '[', ']', ']', ',', '"', '\\', 'u', '0', '0', '5', 'B', '\\',
        '"', '"', ':', '\x7b', '\x7d', '\x7d'] := by decide +kernel
  rw [chars]
  refine ⟨_, [], .none _, .object ?_, .none _⟩
  apply SpellsMembers.member (.start (.none _)) (plainKey _) (.none _) (.one (by decide) (.none _)) (lists _)
  apply SpellsMembers.member (.comma (.none _) (.none _)) (codedKey _) (.none _) (.none _) (.object (.close (.none _)))
  exact .close (.none _)

theorem checkNesting_spelled_twins :
    SpelledAs twins twinsText.toList ∧ checkNesting twinsText 3 = .ok () ∧
      checkNesting twinsText 2 = .error (.tooDeep 2) := by
  obtain ⟨admitted, _⟩ := (checkNesting_spelled twins 3).2 twinsText spelledAs_twins
  obtain ⟨rejected, _⟩ := (checkNesting_spelled twins 2).2 twinsText spelledAs_twins
  exact ⟨spelledAs_twins, admitted, rejected⟩

end FilterSql.Expr
