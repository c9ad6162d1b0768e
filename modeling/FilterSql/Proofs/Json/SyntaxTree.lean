import FilterSql.Json.Token

/-!
# Syntax trees of JSON

What a JSON text says and how it may be written, whether or not it is read: numbers of any size, strings of any 16-bit
units, objects with several members of the same key, and lists and objects nested at will. All spellings are given by
relations between a text and what is left of it behind the spelling.
-/

set_option autoImplicit false

namespace FilterSql.Json

/-! ## Numbers -/

/-- One or more digits. -/
def Digits (chars : List Char) : Prop :=
  chars ≠ [] ∧ ∀ c ∈ chars, c.isDigit = true

/-- A number as it is written, part by part. Fraction and exponent may be missing. -/
structure Numeral where
  negative : Bool
  whole : List Char
  fraction : List Char
  exponent : List Char
  wholeDigits : Digits whole
  /-- Only zero itself starts with a zero. -/
  leading : whole.head? = some '0' → whole = ['0']
  fractionDigits : fraction = [] ∨ ∃ digits, Digits digits ∧ fraction = '.' :: digits
  exponentDigits : exponent = [] ∨ ∃ letter ∈ ['e', 'E'], ∃ sign ∈ [[], ['+'], ['-']], ∃ digits, Digits digits ∧
    exponent = letter :: sign ++ digits

namespace Numeral

def sign (numeral : Numeral) : List Char :=
  if numeral.negative then ['-'] else []

def chars (numeral : Numeral) : List Char :=
  numeral.sign ++ numeral.whole ++ numeral.fraction ++ numeral.exponent

end Numeral

/-! ## Strings -/

/-- The 16-bit units of a character: one, or a pair of halves. -/
def unitsOf (c : Char) : List UInt16 :=
  if c.toNat < 0x10000 then [.ofNat c.toNat]
  else [.ofNat (0xD800 + (c.toNat - 0x10000) / 0x400), .ofNat (0xDC00 + (c.toNat - 0x10000) % 0x400)]

/-- The text starts with a spelling of the units and the closing quote. Half of a pair may stand alone. -/
inductive SpellsUnits : List UInt16 → (text rest : List Char) → Prop where
  | close (rest : List Char) : SpellsUnits [] ('"' :: rest) rest
  | plain {c : Char} {units : List UInt16} {text rest : List Char} :
      c ≠ '"' → c ≠ '\\' → 0x20 ≤ c.toNat → SpellsUnits units text rest →
      SpellsUnits (unitsOf c ++ units) (c :: text) rest
  | letter {letter c : Char} {units : List UInt16} {text rest : List Char} :
      escaped? letter = some c → SpellsUnits units text rest →
      SpellsUnits (unitsOf c ++ units) ('\\' :: letter :: text) rest
  | code {first second third fourth : Char} {a b c d : Nat} {units : List UInt16} {text rest : List Char} :
      hexValue? first = some a → hexValue? second = some b → hexValue? third = some c → hexValue? fourth = some d →
      SpellsUnits units text rest →
      SpellsUnits (.ofNat (16 * (16 * (16 * a + b) + c) + d) :: units)
        ('\\' :: 'u' :: first :: second :: third :: fourth :: text) rest

/-! ## Values -/

inductive SyntaxTree where
  | null
  | bool (value : Bool)
  | number (numeral : Numeral)
  | string (units : List UInt16)
  | list (items : List SyntaxTree)
  | object (members : List (List UInt16 × SyntaxTree))

namespace SyntaxTree

mutual

/-- The greatest number of lists and objects around any point of the tree. -/
def nesting : SyntaxTree → Nat
  | list items => nestingOfItems items + 1
  | object members => nestingOfMembers members + 1
  | _ => 0

def nestingOfItems : List SyntaxTree → Nat
  | [] => 0
  | item :: rest => max (nesting item) (nestingOfItems rest)

def nestingOfMembers : List (List UInt16 × SyntaxTree) → Nat
  | [] => 0
  | (_, tree) :: rest => max (nesting tree) (nestingOfMembers rest)

end

end SyntaxTree

/-- Nothing but blanks stands before the rest of the text. -/
inductive Blank : (text rest : List Char) → Prop where
  | none (text : List Char) : Blank text text
  | one {c : Char} {text rest : List Char} : isBlank c = true → Blank text rest → Blank (c :: text) rest

/-- What comes between elements, or before the first of them. -/
inductive Separated : (first : Bool) → (text rest : List Char) → Prop where
  | start {text rest : List Char} : Blank text rest → Separated true text rest
  | comma {text middle rest : List Char} : Blank text (',' :: middle) → Blank middle rest → Separated false text rest

mutual

/-- The text starts with a spelling of the tree. -/
inductive Spells : SyntaxTree → (text rest : List Char) → Prop where
  | null (rest : List Char) : Spells .null (['n', 'u', 'l', 'l'] ++ rest) rest
  | true (rest : List Char) : Spells (.bool true) (['t', 'r', 'u', 'e'] ++ rest) rest
  | false (rest : List Char) : Spells (.bool false) (['f', 'a', 'l', 's', 'e'] ++ rest) rest
  | number (numeral : Numeral) (rest : List Char) : Spells (.number numeral) (numeral.chars ++ rest) rest
  | string {units : List UInt16} {text rest : List Char} :
      SpellsUnits units text rest → Spells (.string units) ('"' :: text) rest
  | list {items : List SyntaxTree} {text rest : List Char} :
      SpellsItems true items text rest → Spells (.list items) ('[' :: text) rest
  | object {members : List (List UInt16 × SyntaxTree)} {text rest : List Char} :
      SpellsMembers true members text rest → Spells (.object members) ('\x7b' :: text) rest

/-- The text starts with a spelling of the items and the closing bracket, behind the opening one or behind an item. -/
inductive SpellsItems : (first : Bool) → List SyntaxTree → (text rest : List Char) → Prop where
  | close {first : Bool} {text rest : List Char} : Blank text (']' :: rest) → SpellsItems first [] text rest
  | item {first : Bool} {tree : SyntaxTree} {items : List SyntaxTree} {text start behind rest : List Char} :
      Separated first text start → Spells tree start behind → SpellsItems false items behind rest →
      SpellsItems first (tree :: items) text rest

inductive SpellsMembers : (first : Bool) → List (List UInt16 × SyntaxTree) → (text rest : List Char) → Prop where
  | close {first : Bool} {text rest : List Char} : Blank text ('\x7d' :: rest) → SpellsMembers first [] text rest
  | member {first : Bool} {key : List UInt16} {tree : SyntaxTree} {members : List (List UInt16 × SyntaxTree)}
      {text name colon value start behind rest : List Char} :
      Separated first text ('"' :: name) → SpellsUnits key name colon → Blank colon (':' :: value) →
      Blank value start → Spells tree start behind → SpellsMembers false members behind rest →
      SpellsMembers first ((key, tree) :: members) text rest

end

/-- The text is a spelling of the tree, with blanks around it. -/
def SpelledAs (tree : SyntaxTree) (text : List Char) : Prop :=
  ∃ start behind, Blank text start ∧ Spells tree start behind ∧ Blank behind []

/-! ## Every tree has a spelling -/

def hexDigit (value : Nat) : Char :=
  if value < 10 then .ofNat (48 + value) else .ofNat (87 + value)

theorem hexValue_hexDigit : ∀ value : Fin 16, hexValue? (hexDigit value) = some value.val := by
  decide

theorem exists_spellsUnits (units : List UInt16) (rest : List Char) : ∃ text, SpellsUnits units text rest := by
  induction units with
  | nil => exact ⟨_, .close rest⟩
  | cons unit units ih =>
      obtain ⟨text, spelled⟩ := ih
      have digit : ∀ value : Nat, hexValue? (hexDigit (value % 16)) = some (value % 16) :=
        fun value => hexValue_hexDigit ⟨value % 16, Nat.mod_lt _ (by decide)⟩
      have code := SpellsUnits.code (digit (unit.toNat / 4096)) (digit (unit.toNat / 256)) (digit (unit.toNat / 16))
        (digit unit.toNat) spelled
      have same : 16 * (16 * (16 * (unit.toNat / 4096 % 16) + unit.toNat / 256 % 16) + unit.toNat / 16 % 16) +
          unit.toNat % 16 = unit.toNat := by
        have := unit.toNat_lt
        omega
      rw [same, UInt16.ofNat_toNat] at code
      exact ⟨_, code⟩

theorem exists_separated (first : Bool) (rest : List Char) : ∃ text, Separated first text rest := by
  cases first with
  | true => exact ⟨rest, .start (.none rest)⟩
  | false => exact ⟨_, .comma (.none _) (.none rest)⟩

mutual

theorem exists_spells : ∀ (tree : SyntaxTree) (rest : List Char), ∃ text, Spells tree text rest
  | .null, rest => ⟨_, .null rest⟩
  | .bool true, rest => ⟨_, .true rest⟩
  | .bool false, rest => ⟨_, .false rest⟩
  | .number numeral, rest => ⟨_, .number numeral rest⟩
  | .string units, rest => by
      obtain ⟨text, spelled⟩ := exists_spellsUnits units rest
      exact ⟨_, .string spelled⟩
  | .list items, rest => by
      obtain ⟨text, spelled⟩ := exists_spellsItems true items rest
      exact ⟨_, .list spelled⟩
  | .object members, rest => by
      obtain ⟨text, spelled⟩ := exists_spellsMembers true members rest
      exact ⟨_, .object spelled⟩

theorem exists_spellsItems : ∀ (first : Bool) (items : List SyntaxTree) (rest : List Char),
    ∃ text, SpellsItems first items text rest
  | _, [], rest => ⟨_, .close (.none _)⟩
  | first, tree :: items, rest => by
      obtain ⟨behind, others⟩ := exists_spellsItems false items rest
      obtain ⟨start, spelled⟩ := exists_spells tree behind
      obtain ⟨text, separated⟩ := exists_separated first start
      exact ⟨text, .item separated spelled others⟩

theorem exists_spellsMembers : ∀ (first : Bool) (members : List (List UInt16 × SyntaxTree)) (rest : List Char),
    ∃ text, SpellsMembers first members text rest
  | _, [], rest => ⟨_, .close (.none _)⟩
  | first, (key, tree) :: members, rest => by
      obtain ⟨behind, others⟩ := exists_spellsMembers false members rest
      obtain ⟨start, spelled⟩ := exists_spells tree behind
      obtain ⟨name, named⟩ := exists_spellsUnits key (':' :: start)
      obtain ⟨text, separated⟩ := exists_separated first ('"' :: name)
      exact ⟨text, .member separated named (.none _) (.none _) spelled others⟩

end

theorem exists_spelledAs (tree : SyntaxTree) : ∃ text, SpelledAs tree text := by
  obtain ⟨text, spelled⟩ := exists_spells tree []
  exact ⟨text, text, [], .none text, spelled, .none []⟩

end FilterSql.Json
