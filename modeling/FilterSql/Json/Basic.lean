import FilterSql.Numeric.Binary

/-!
# JSON values

JSON values with objects in member order. An object holds each key once: a repeated key keeps its first place and
takes the last value.
-/

set_option autoImplicit false

namespace FilterSql

open Numeric (Double)

/-- A JSON number: an integer where the text has neither fraction nor exponent and the integer fits, else a
floating-point number. -/
inductive Json.Number where
  | integer (value : Int)
  | float (value : Double)
  deriving DecidableEq, Repr, Inhabited

inductive Json where
  | null
  | bool (value : Bool)
  | number (value : Json.Number)
  | string (value : String)
  | array (items : List Json)
  | object (members : List (String × Json))
  deriving Repr, Inhabited

namespace Json

def Number.toDouble : Number → Double
  | integer value => .ofInt value
  | float value => value

def isNull : Json → Bool
  | null => true
  | _ => false

/-- Puts a member into an object: in its old place if the key is there, else at the end. -/
def insertMember (members : List (String × Json)) (key : String) (value : Json) : List (String × Json) :=
  match members with
  | [] => [(key, value)]
  | (other, old) :: rest =>
    if other = key then (key, value) :: rest else (other, old) :: insertMember rest key value

/-- The object with the given members, later ones replacing earlier ones of the same key. -/
def ofMembers (members : List (String × Json)) : Json :=
  object (members.foldl (fun collected member => insertMember collected member.1 member.2) [])

def find? (members : List (String × Json)) (key : String) : Option Json :=
  (members.find? fun member => member.1 == key).map (·.2)

mutual

/-- The greatest number of lists and objects around any point of the value. -/
def nesting : Json → Nat
  | array items => nestingOfItems items + 1
  | object members => nestingOfMembers members + 1
  | _ => 0

def nestingOfItems : List Json → Nat
  | [] => 0
  | item :: rest => max (nesting item) (nestingOfItems rest)

def nestingOfMembers : List (String × Json) → Nat
  | [] => 0
  | (_, value) :: rest => max (nesting value) (nestingOfMembers rest)

end

mutual

/-- Whether two values are the same value. -/
def same : (left right : Json) → Decidable (left = right)
  | null, null => isTrue rfl
  | bool left, bool right => if h : left = right then isTrue (h ▸ rfl) else isFalse (by simp [h])
  | number left, number right => if h : left = right then isTrue (h ▸ rfl) else isFalse (by simp [h])
  | string left, string right => if h : left = right then isTrue (h ▸ rfl) else isFalse (by simp [h])
  | array left, array right =>
    match sameItems left right with
    | isTrue h => isTrue (h ▸ rfl)
    | isFalse h => isFalse (by simp [h])
  | object left, object right =>
    match sameMembers left right with
    | isTrue h => isTrue (h ▸ rfl)
    | isFalse h => isFalse (by simp [h])
  | null, bool _ | null, number _ | null, string _ | null, array _ | null, object _
  | bool _, null | bool _, number _ | bool _, string _ | bool _, array _ | bool _, object _
  | number _, null | number _, bool _ | number _, string _ | number _, array _ | number _, object _
  | string _, null | string _, bool _ | string _, number _ | string _, array _ | string _, object _
  | array _, null | array _, bool _ | array _, number _ | array _, string _ | array _, object _
  | object _, null | object _, bool _ | object _, number _ | object _, string _ | object _, array _ =>
    isFalse (by simp)

def sameItems : (left right : List Json) → Decidable (left = right)
  | [], [] => isTrue rfl
  | [], _ :: _ => isFalse (by simp)
  | _ :: _, [] => isFalse (by simp)
  | leftItem :: left, rightItem :: right =>
    match same leftItem rightItem, sameItems left right with
    | isTrue head, isTrue tail => isTrue (head ▸ tail ▸ rfl)
    | isFalse head, _ => isFalse (by simp [head])
    | _, isFalse tail => isFalse (by simp [tail])

def sameMembers : (left right : List (String × Json)) → Decidable (left = right)
  | [], [] => isTrue rfl
  | [], _ :: _ => isFalse (by simp)
  | _ :: _, [] => isFalse (by simp)
  | (leftKey, leftValue) :: left, (rightKey, rightValue) :: right =>
    if key : leftKey = rightKey then
      match same leftValue rightValue, sameMembers left right with
      | isTrue head, isTrue tail => isTrue (key ▸ head ▸ tail ▸ rfl)
      | isFalse head, _ => isFalse (by simp [head])
      | _, isFalse tail => isFalse (by simp [tail])
    else isFalse (by simp [key])

end

instance : DecidableEq Json := same

end Json

end FilterSql
