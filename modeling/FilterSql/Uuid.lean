import FilterSql.Text.Quoted

/-!
# Universally unique identifiers

UUIDs with their four spellings: 32 hexadecimal digits, the same in five groups with hyphens, and the grouped form
in braces or after `urn:uuid:`.
-/

set_option autoImplicit false

namespace FilterSql

structure Uuid where
  bits : BitVec 128
  deriving DecidableEq, Repr

namespace Uuid

/-- Why a text is no UUID. Positions count bytes, groups count from zero. -/
inductive ReadError where
  | badCharacter (found : Char) (position : Nat)
  | badLength (found : Nat)
  | badGroupCount (found : Nat)
  | badGroupLength (group expected found : Nat)
  deriving DecidableEq, Repr

def ReadError.message : ReadError → String
  | badCharacter found position =>
    "UUID parsing failed: invalid character: found `" ++ found.toString ++ "` at " ++ toString position
  | badLength found => "UUID parsing failed: invalid length: found " ++ toString found
  | badGroupCount found => "UUID parsing failed: invalid group count: expected 5, found " ++ toString found
  | badGroupLength group expected found =>
    "UUID parsing failed: invalid group length in group " ++ toString group ++ ": expected " ++
      toString expected ++ ", found " ++ toString found

def isHex (c : Char) : Bool :=
  ('0' ≤ c && c ≤ '9') || ('a' ≤ c && c ≤ 'f') || ('A' ≤ c && c ≤ 'F')

def hexValue (c : Char) : Nat :=
  if c ≤ '9' then c.toNat - 48 else if c ≤ 'F' then c.toNat - 55 else c.toNat - 87

def ofHex (digits : List Char) : Uuid :=
  ⟨BitVec.ofNat 128 (digits.foldl (fun value c => 16 * value + hexValue c) 0)⟩

/-- The groups of a text that is cut at its hyphens. -/
def groups : List Char → List (List Char)
  | [] => [[]]
  | c :: rest =>
    if c = '-' then [] :: groups rest
    else
      match groups rest with
      | [] => [[c]]
      | first :: others => (c :: first) :: others

def groupLengths : List Nat := [8, 4, 4, 4, 12]

/-- The inside of a text in braces or after `urn:uuid:`, with the number of characters before it. Any other text is
its own inside. -/
def unwrap (text : List Char) : List Char × Nat × Bool :=
  if text.take 1 = ['\x7b'] ∧ 2 ≤ text.length ∧ text.getLast? = some '\x7d' then
    ((text.drop 1).dropLast, 1, true)
  else if text.take 9 = "urn:uuid:".toList then (text.drop 9, 9, true)
  else (text, 0, false)

/-- The first character that is neither a hexadecimal digit nor a hyphen, with its position in bytes. -/
def strayCharacter? : Nat → List Char → Option (Char × Nat)
  | _, [] => none
  | position, c :: rest =>
    if isHex c || c == '-' then strayCharacter? (position + c.utf8Size) rest else some (c, position)

/-- The first of the leading groups that has the wrong length. -/
def badGroup? (group : Nat) : (expected found : List Nat) → Option (Nat × Nat × Nat)
  | expected :: moreExpected, found :: moreFound =>
    if expected = found then badGroup? (group + 1) moreExpected moreFound else some (group, expected, found)
  | _, _ => none

/-- What is wrong with a text that is no UUID. The length of the last group counts all that follows the leading
groups, also the marks around them. -/
def diagnose (text : List Char) : ReadError :=
  let (inside, offset, wrapped) := unwrap text
  let byteLength := (String.ofList text).utf8ByteSize
  match strayCharacter? offset inside with
  | some (c, position) => .badCharacter c position
  | none =>
    let lengths := (groups inside).map List.length
    if lengths.length = 1 ∧ !wrapped then .badLength byteLength
    else if lengths.length ≠ 5 then .badGroupCount lengths.length
    else
      match badGroup? 0 (groupLengths.take 4) (lengths.take 4) with
      | some (group, expected, found) => .badGroupLength group expected found
      | none => .badGroupLength 4 12 (byteLength - 24)

def parse (text : String) : Except ReadError Uuid :=
  let chars := text.toList
  let (inside, _, _) := unwrap chars
  if chars.length = 32 ∧ chars.all isHex then .ok (ofHex chars)
  else
    let parts := groups inside
    if parts.map List.length = groupLengths ∧ parts.flatten.all isHex then .ok (ofHex parts.flatten)
    else .error (diagnose chars)

def text (uuid : Uuid) : String :=
  let digits := Nat.toDigits 16 uuid.bits.toNat
  let padded := List.replicate (32 - digits.length) '0' ++ digits
  let slice (start length : Nat) : String := String.ofList ((padded.drop start).take length)
  "-".intercalate [slice 0 8, slice 8 4, slice 12 4, slice 16 4, slice 20 12]

end Uuid

end FilterSql
