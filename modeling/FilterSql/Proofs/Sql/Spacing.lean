import FilterSql.Operator
import FilterSql.Proofs.Sql.Placeholder
import FilterSql.Sql.Builder

/-!
# Spacing

Joining texts with a space where one is needed is associative, and the empty text is its unit. How a statement is
cut into pieces does therefore not show in its text.
-/

set_option autoImplicit false

namespace FilterSql.Sql

/-- A text that ends in this character keeps apart from the text behind it. -/
def partsAfter (last : Char) : Bool :=
  !(Text.isBlank last || last == '(')

/-- A text that starts with this character keeps apart from the text before it. -/
def partsBefore (first : Char) : Bool :=
  !(Text.isBlank first || first == ')' || first == ',')

theorem needsSpace_eq (before after : String) :
    needsSpace before after = (before.back?.any partsAfter && after.front?.any partsBefore) := by
  unfold needsSpace
  cases before.back? with
  | none => rfl
  | some last =>
      cases after.front? with
      | none => simp
      | some first => simp [partsAfter, partsBefore, Bool.and_assoc]

@[simp] theorem needsSpace_empty_left (after : String) : needsSpace "" after = false := by
  simp [needsSpace_eq, String.back?_eq]

@[simp] theorem needsSpace_empty_right (before : String) : needsSpace before "" = false := by
  simp [needsSpace_eq, String.front?_eq]

@[simp] theorem join_empty_left (text : String) : join "" text = text := by
  simp [join]

@[simp] theorem join_empty_right (text : String) : join text "" = text := by
  simp [join]

private theorem front?_append {first : String} (second : String) (nonempty : first ≠ "") :
    (first ++ second).front? = first.front? := by
  have filled : first.toList ≠ [] := by simpa [String.toList_eq_nil_iff] using nonempty
  obtain ⟨head, tail, shape⟩ := List.exists_cons_of_ne_nil filled
  simp [String.front?_eq, shape]

private theorem back?_append (first : String) {second : String} (nonempty : second ≠ "") :
    (first ++ second).back? = second.back? := by
  have filled : second.toList ≠ [] := by simpa [String.toList_eq_nil_iff] using nonempty
  simp [String.back?_eq, List.getLast?_append, List.getLast?_eq_some_getLast filled]

theorem front?_join {first : String} (second : String) (nonempty : first ≠ "") :
    (join first second).front? = first.front? := by
  unfold join
  split
  · rw [String.append_assoc, front?_append _ nonempty]
  · exact front?_append _ nonempty

theorem back?_join (first : String) {second : String} (nonempty : second ≠ "") :
    (join first second).back? = second.back? := by
  unfold join
  split
  · exact back?_append _ nonempty
  · exact back?_append _ nonempty

/-- The text in the middle decides on both spaces, unless it is empty. -/
theorem join_assoc (first second third : String) :
    join (join first second) third = join first (join second third) := by
  by_cases empty : second = ""
  · simp [empty]
  · have left : needsSpace (join first second) third = needsSpace second third := by
      simp only [needsSpace_eq, back?_join first empty]
    have right : needsSpace first (join second third) = needsSpace first second := by
      simp only [needsSpace_eq, front?_join third empty]
    have outer : join (join first second) third =
        join first second ++ (if needsSpace second third then " " else "") ++ third := by
      rw [join, left]
      split <;> simp
    have inner : join first (join second third) =
        first ++ (if needsSpace first second then " " else "") ++ join second third := by
      rw [join, right]
      split <;> simp
    rw [outer, inner]
    unfold join
    split <;> split <;> simp [String.append_assoc]

/-! ## Texts that keep apart -/

/-- A text that is kept apart from the one before it, if that one keeps apart. -/
def StartsApart (text : String) : Prop :=
  text.front?.any partsBefore = true

/-- A text that is kept apart from the one behind it, if that one keeps apart. -/
def EndsApart (text : String) : Prop :=
  text.back?.any partsAfter = true

structure Detached (text : String) : Prop where
  starts : StartsApart text
  ends : EndsApart text

theorem startsApart_of_toList {text : String} (first : Char) (rest : List Char)
    (shape : text.toList = first :: rest) (parts : partsBefore first = true) : StartsApart text := by
  simp [StartsApart, String.front?_eq, shape, parts]

theorem endsApart_of_toList {text : String} (start : List Char) (last : Char)
    (shape : text.toList = start ++ [last]) (parts : partsAfter last = true) : EndsApart text := by
  simp [EndsApart, String.back?_eq, shape, parts]

theorem StartsApart.append {text : String} (starts : StartsApart text) (more : String) :
    StartsApart (text ++ more) := by
  by_cases empty : text = ""
  · simp [empty, StartsApart, String.front?_eq] at starts
  · rw [StartsApart, front?_append more empty]
    exact starts

theorem EndsApart.append {text : String} (ends : EndsApart text) (before : String) :
    EndsApart (before ++ text) := by
  by_cases empty : text = ""
  · simp [empty, EndsApart, String.back?_eq] at ends
  · rw [EndsApart, back?_append before empty]
    exact ends

theorem join_apart {before after : String} (ends : EndsApart before) (starts : StartsApart after) :
    join before after = before ++ (" " ++ after) := by
  have spaced : needsSpace before after = true := by
    rw [needsSpace_eq, ends, starts]
    rfl
  simp [join, spaced, String.append_assoc]

theorem join_word {before word after : String} (ends : EndsApart before) (detached : Detached word)
    (starts : StartsApart after) : join before (join word after) = before ++ (" " ++ (word ++ (" " ++ after))) := by
  rw [join_apart detached.ends starts, join_apart ends (detached.starts.append _)]

theorem join_opening {before : String} (after : String) (opening : before.back? = some '(') :
    join before after = before ++ after := by
  have tight : needsSpace before after = false := by simp [needsSpace_eq, opening, partsAfter]
  simp [join, tight]

theorem join_closing (before : String) {after : String} (closing : after.front? = some ')') :
    join before after = before ++ after := by
  have tight : needsSpace before after = false := by simp [needsSpace_eq, closing, partsBefore]
  simp [join, tight]

/-! ## What keeps apart -/

theorem detached_parenthesized (inner : String) : Detached ("(" ++ inner ++ ")") where
  starts := startsApart_of_toList '(' (inner.toList ++ [')']) (by simp) (by decide)
  ends := endsApart_of_toList ('(' :: inner.toList) ')' (by simp) (by decide)

theorem detached_quoted (name : String) : Detached (FieldPath.quoted name) where
  starts := startsApart_of_toList '"' (name.toList ++ ['"']) (by simp [FieldPath.quoted]) (by decide)
  ends := endsApart_of_toList ('"' :: name.toList) '"' (by simp [FieldPath.quoted]) (by decide)

theorem not_isBlank_of_toNat {c : Char} (visible : 32 < c.toNat ∧ c.toNat < 127) : Text.isBlank c = false := by
  simp only [Text.isBlank]
  simp
  omega

theorem not_isBlank_of_isDigit {c : Char} (digit : c.isDigit = true) : Text.isBlank c = false := by
  have range := Char.isDigit_iff_toNat.mp digit
  simp only [Char.reduceToNat] at range
  exact not_isBlank_of_toNat (by omega)

theorem partsAfter_of_isDigit {c : Char} (digit : c.isDigit = true) : partsAfter c = true := by
  have different : c ≠ '(' := by
    rintro rfl
    exact absurd digit (by decide)
  simp [partsAfter, not_isBlank_of_isDigit digit, different]

theorem partsBefore_of_isDigit {c : Char} (digit : c.isDigit = true) : partsBefore c = true := by
  have different : c ≠ ')' ∧ c ≠ ',' := by
    constructor <;> rintro rfl <;> exact absurd digit (by decide)
  simp [partsBefore, not_isBlank_of_isDigit digit, different]

theorem detached_placeholder (backend : Backend) (ordinal : Nat) : Detached (backend.placeholder ordinal) where
  starts := by
    refine startsApart_of_toList backend.sign (backend.numeral ordinal) (backend.placeholder_toList ordinal) ?_
    cases backend <;> decide
  ends := by
    rcases List.eq_nil_or_concat (backend.numeral ordinal) with none | ⟨start, last, shape⟩
    · refine endsApart_of_toList [] backend.sign (by simp [Backend.placeholder_toList, none]) ?_
      cases backend <;> decide
    · have member : last ∈ backend.numeral ordinal := by simp [shape]
      refine endsApart_of_toList (backend.sign :: start) last (by simp [Backend.placeholder_toList, shape]) ?_
      exact partsAfter_of_isDigit (Backend.isDigit_of_mem_numeral member)

theorem detached_name (operator : Operator) : Detached operator.name where
  starts := by
    cases operator <;> rw [StartsApart] <;> decide +kernel
  ends := by
    cases operator <;> rw [EndsApart] <;> decide +kernel

end FilterSql.Sql
