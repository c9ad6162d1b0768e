import FilterSql.Ordering
import FilterSql.Proofs.Expr.Nesting

/-!
# Lists of strings

A text that must hold a list of strings is read as any other text is, and what is read are the strings of the list.
-/

set_option autoImplicit false

namespace FilterSql.Json

variable {α β : Type} {item : Reader α} {image : Reader β} {make : α → β}

theorem readItems_ok_iff
    (same : ∀ text value rest, item text = .ok (value, rest) ↔ image text = .ok (make value, rest)) {fuel : Nat}
    {first : Bool} {text rest : List Char} {values : List α} :
    readItems item fuel first text = .ok (values, rest) ↔
      readItems image fuel first text = .ok (values.map make, rest) := by
  induction fuel generalizing first text values with
  | zero =>
      constructor
      · intro read
        cases read
      · intro read
        cases read
  | succ fuel ih =>
      unfold readItems
      constructor
      · intro read
        obtain ⟨⟨found, behind⟩, next, read⟩ := ok_of_bind read
        cases found with
        | false =>
            cases read
            simp [next, bind, Except.bind]
        | true =>
            obtain ⟨⟨value, after⟩, itemRead, read⟩ := ok_of_bind read
            obtain ⟨⟨others, ended⟩, othersRead, read⟩ := ok_of_bind read
            cases read
            simp [next, bind, Except.bind, (same _ _ _).mp itemRead, ih.mp othersRead]
      · intro read
        obtain ⟨⟨found, behind⟩, next, read⟩ := ok_of_bind read
        cases found with
        | false =>
            obtain ⟨none, rfl⟩ := Prod.mk.inj (Except.ok.inj read)
            obtain rfl : values = [] := List.map_eq_nil_iff.mp none.symm
            simp [next, bind, Except.bind]
        | true =>
            obtain ⟨⟨value, after⟩, imageRead, read⟩ := ok_of_bind read
            obtain ⟨⟨others, ended⟩, othersRead, read⟩ := ok_of_bind read
            cases values with
            | nil => cases read
            | cons first rest =>
                cases read
                simp [next, bind, Except.bind, (same _ _ _).mpr imageRead, ih.mpr othersRead]

theorem quote_of_readScalar {c : Char} {rest after : List Char} {value : String}
    (read : readScalar c rest = .ok (.string value, after)) : c = '"' := by
  unfold readScalar at read
  by_contra other
  rw [if_neg other] at read
  -- Every other word or number is a value of another kind.
  split at read
  · obtain ⟨_, _, shape⟩ := ok_of_bind read
    cases shape
  · split at read
    · obtain ⟨_, _, shape⟩ := ok_of_bind read
      cases shape
    · split at read
      · obtain ⟨_, _, shape⟩ := ok_of_bind read
        cases shape
      · split at read
        · obtain ⟨_, _, shape⟩ := ok_of_bind read
          cases shape
        · split at read
          · obtain ⟨_, _, shape⟩ := ok_of_bind read
            cases shape
          · cases read

theorem quote_of_readValue {depth : Nat} {text rest : List Char} {value : String}
    (read : readValue depth text = .ok (.string value, rest)) :
    ∃ behind, skipBlank text = '"' :: behind ∧ readScalar '"' behind = .ok (.string value, rest) := by
  unfold readValue at read
  cases shape : skipBlank text with
  | nil =>
      rw [shape] at read
      cases read
  | cons c behind =>
      rw [shape] at read
      dsimp only at read
      split at read
      · cases depth with
        | zero => cases read
        | succ inner =>
            obtain ⟨_, _, list⟩ := ok_of_bind read
            cases list
      · split at read
        · cases depth with
          | zero => cases read
          | succ inner =>
              obtain ⟨_, _, object⟩ := ok_of_bind read
              cases object
        · obtain rfl := quote_of_readScalar read
          exact ⟨behind, rfl, read⟩

/-- A string is read as one whether a string or any value is asked for. -/
theorem readStringValue_ok_iff (depth : Nat) {text rest : List Char} {value : String} :
    readStringValue text = .ok (value, rest) ↔ readValue depth text = .ok (.string value, rest) := by
  constructor
  · intro read
    unfold readStringValue readText readFirst at read
    unfold readValue
    cases shape : skipBlank text with
    | nil =>
        rw [shape] at read
        cases read
    | cons c behind =>
        rw [shape] at read
        dsimp only at read
        split at read
        next quote =>
          subst quote
          obtain ⟨_, stringRead, same⟩ := ok_of_bind read
          cases same
          simp [readScalar, stringRead, bind, Except.bind]
        next => cases read
  · intro read
    obtain ⟨behind, shape, read⟩ := quote_of_readValue read
    obtain ⟨_, stringRead, same⟩ := ok_of_bind (read : (readString behind >>= _) = _)
    cases same
    unfold readStringValue readText readFirst
    rw [shape]
    simp [stringRead, bind, Except.bind]

theorem readStrings_ok_iff {depth : Nat} {text rest : List Char} {values : List String} :
    readListOf (fun _ => readStringValue) depth text = .ok (values, rest) ↔
      readValue depth text = .ok (.array (values.map .string), rest) := by
  unfold readListOf readFirst readValue
  cases skipBlank text with
  | nil => simp
  | cons c behind =>
      by_cases opening : c = '['
      · subst opening
        cases depth with
        | zero => simp
        | succ inner =>
            have items : readList readStringValue behind = .ok (values, rest) ↔
                readList (readValue inner) behind = .ok (values.map .string, rest) :=
              readItems_ok_iff fun _ _ _ => readStringValue_ok_iff inner
            simp only [if_true]
            rw [items]
            cases readList (readValue inner) behind <;> simp [bind, Except.bind, Prod.ext_iff]
      · have noList : ∀ items after, readScalar c behind ≠ .ok (.array items, after) := by
          intro items after read
          obtain ⟨flat, _⟩ := Expr.readScalar_reaches (Expr.reaches_start _) read
          cases flat
        constructor
        · intro read
          simp [opening] at read
        · intro read
          simp only [opening, if_false] at read
          split at read
          · cases depth with
            | zero => cases read
            | succ inner =>
                obtain ⟨_, _, object⟩ := ok_of_bind read
                cases object
          · exact absurd read (noList _ _)

/-- The directives in a JSON text are the strings of the list that it is. -/
theorem readDirectives_ok_iff {text : String} {directives : List String} :
    readAll Orders.readDirectives text = .ok directives ↔ parse text = .ok (.array (directives.map .string)) := by
  rw [readAll_ok_iff, parse, readAll_ok_iff]
  constructor
  · rintro ⟨rest, read, blank⟩
    exact ⟨rest, readStrings_ok_iff.mp read, blank⟩
  · rintro ⟨rest, read, blank⟩
    exact ⟨rest, readStrings_ok_iff.mpr read, blank⟩

end FilterSql.Json
