import FilterSql.Proofs.Sql.FieldPath
import FilterSql.Proofs.Sql.Spacing

/-!
# Placeholders in a text

The placeholders that stand in a text outside of double quotes, each with its place. They are looked for without any
knowledge of how the text came about: whatever starts with the sign of some backend is one, with all digits behind it.
-/

set_option autoImplicit false

namespace FilterSql.Sql

def isSign (c : Char) : Bool :=
  c == '$' || c == '?'

/-- The placeholders outside of double quotes, from a place of the text on. A double quote is open iff `quoted`. -/
def scan : (quoted : Bool) → (place : Nat) → List Char → List (Nat × String)
  | _, _, [] => []
  | true, place, c :: rest => scan (c != '"') (place + 1) rest
  | false, place, c :: rest =>
    if c = '"' then scan true (place + 1) rest
    else if isSign c then (place, String.ofList (c :: rest.takeWhile Char.isDigit)) :: scan false (place + 1) rest
    else scan false (place + 1) rest

/-- The placeholders of a text that stand outside of double quotes, from left to right, each with its place. -/
def placeholders (text : String) : List (Nat × String) :=
  scan false 0 text.toList

def quotedAfter (quoted : Bool) (text : List Char) : Bool :=
  text.foldl (fun quoted c => quoted != (c == '"')) quoted

/-- The same marks in a text that so many characters are put in front of. -/
def shifted (count : Nat) (marks : List (Nat × String)) : List (Nat × String) :=
  marks.map fun mark => (count + mark.1, mark.2)

theorem quotedAfter_cons (quoted : Bool) (c : Char) (rest : List Char) :
    quotedAfter quoted (c :: rest) = quotedAfter (quoted != (c == '"')) rest :=
  rfl

@[simp] theorem quotedAfter_append (quoted : Bool) (first second : List Char) :
    quotedAfter quoted (first ++ second) = quotedAfter (quotedAfter quoted first) second :=
  List.foldl_append

theorem scan_add (quoted : Bool) (count place : Nat) (text : List Char) :
    scan quoted (count + place) text = shifted count (scan quoted place text) := by
  induction text generalizing quoted place with
  | nil => cases quoted <;> rfl
  | cons c rest ih =>
      have next := fun quoted => ih quoted (place + 1)
      cases quoted with
      | true => simpa [scan, Nat.add_assoc] using next _
      | false =>
          unfold scan
          split
          · simpa [Nat.add_assoc] using next true
          · split
            · simpa [shifted, Nat.add_assoc] using next false
            · simpa [Nat.add_assoc] using next false

/-! ## Scanning one text behind another -/

/-- A placeholder at the end of the first text does not go on in the second one. -/
def Stops (before after : List Char) : Prop :=
  (∀ c ∈ after.head?, c.isDigit = false) ∨ ∀ c ∈ before.getLast?, c.isDigit = false ∧ isSign c = false

private theorem Stops.of_cons {c next : Char} {before after : List Char}
    (stops : Stops (c :: next :: before) after) : Stops (next :: before) after :=
  stops.imp id fun last => by simpa using last

/-- Digits in the first text do not go on in the second one either. -/
private theorem takeWhile_append_of_stops {c : Char} {digits after : List Char} (stops : Stops (c :: digits) after)
    (run : c.isDigit = true ∨ isSign c = true) :
    (digits ++ after).takeWhile Char.isDigit = digits.takeWhile Char.isDigit := by
  induction digits generalizing c with
  | nil =>
      rcases stops with ends | last
      · cases after with
        | nil => rfl
        | cons next more => simp [ends next (by simp)]
      · have plain := last c (by simp)
        simp [plain] at run
  | cons next digits ih =>
      cases digit : next.isDigit with
      | false => simp [digit]
      | true => simp [digit, ih stops.of_cons (.inl digit)]

theorem scan_append {before after : List Char} (stops : Stops before after) (quoted : Bool) (place : Nat) :
    scan quoted place (before ++ after) =
      scan quoted place before ++ scan (quotedAfter quoted before) (place + before.length) after := by
  induction before generalizing quoted place with
  | nil => cases quoted <;> rfl
  | cons c rest ih =>
      have stopsAgain : Stops rest after := by
        cases rest with
        | nil => exact .inr (by simp)
        | cons => exact stops.of_cons
      have next := fun quoted => ih stopsAgain quoted (place + 1)
      have length : place + (c :: rest).length = place + 1 + rest.length := by
        simp only [List.length_cons]; omega
      rw [length]
      cases quoted with
      | true => simpa [scan, quotedAfter_cons, bne] using next _
      | false =>
          simp only [List.cons_append, scan]
          split
          next quote => simpa [quotedAfter_cons, quote] using next true
          next plain =>
              have closed : (false != (c == '"')) = false := by simp [plain]
              rw [quotedAfter_cons, closed]
              split
              next sign =>
                  -- The digits behind the sign are the same with or without the second text.
                  rw [takeWhile_append_of_stops stops (.inr sign), next false]
                  rfl
              next => exact next false

theorem scan_append_of_nil {before : List Char} {quoted : Bool} {place : Nat} (silent : scan quoted place before = [])
    (after : List Char) :
    scan quoted place (before ++ after) = scan (quotedAfter quoted before) (place + before.length) after := by
  induction before generalizing quoted place with
  | nil => rfl
  | cons c rest ih =>
      have length : place + (c :: rest).length = place + 1 + rest.length := by
        simp only [List.length_cons]; omega
      rw [length]
      cases quoted with
      | true => simpa [scan, quotedAfter_cons, bne] using ih (by simpa [scan, bne] using silent)
      | false =>
          simp only [List.cons_append, scan] at silent ⊢
          split
          next quote => simpa [quotedAfter_cons, quote] using ih (by simpa [quote] using silent)
          next plain =>
              have closed : (false != (c == '"')) = false := by simp [plain]
              rw [quotedAfter_cons, closed]
              split
              next sign => simp [plain, sign] at silent
              next other => exact ih (by simpa [plain, other] using silent)

/-! ## Scanning joined texts -/

/-- The place of a text that is joined to another one. -/
def placeOf (before after : String) : Nat :=
  before.length + if needsSpace before after then 1 else 0

theorem length_join (before after : String) : (join before after).length = placeOf before after + after.length := by
  unfold join placeOf
  split
  · have one : " ".length = 1 := rfl
    simp only [String.length_append, one]
  · simp only [String.length_append, Nat.add_zero]

/-- Every double quote of the text is closed in it. -/
def Closed (text : String) : Prop :=
  quotedAfter false text.toList = false

theorem Closed.append {before after : String} (left : Closed before) (right : Closed after) :
    Closed (before ++ after) := by
  unfold Closed at *
  rw [String.toList_append, quotedAfter_append, left, right]

private theorem stops_of_tight {before after : String} (tight : needsSpace before after = false) :
    Stops before.toList after.toList := by
  rw [needsSpace_eq, Bool.and_eq_false_iff, String.back?_eq, String.front?_eq] at tight
  rcases tight with open_ | starts
  · refine .inr fun c last => ⟨?_, ?_⟩
    · cases digit : c.isDigit with
      | false => rfl
      | true => simp [Option.mem_def.mp last, partsAfter_of_isDigit digit] at open_
    · cases sign : isSign c with
      | false => rfl
      | true =>
          have parts : partsAfter c = true := by
            simp only [isSign, Bool.or_eq_true, beq_iff_eq] at sign
            rcases sign with rfl | rfl <;> decide
          simp [Option.mem_def.mp last, parts] at open_
  · refine .inl fun c first => ?_
    cases digit : c.isDigit with
    | false => rfl
    | true => simp [Option.mem_def.mp first, partsBefore_of_isDigit digit] at starts

theorem placeholders_join {before : String} (closed : Closed before) (after : String) :
    placeholders (join before after) =
      placeholders before ++ shifted (placeOf before after) (placeholders after) := by
  have behind : quotedAfter false before.toList = false := closed
  unfold placeholders
  rw [← scan_add, placeOf, join]
  cases spaced : needsSpace before after with
  | true =>
      have stops : Stops before.toList (' ' :: after.toList) := .inl (by simp)
      have space : scan false before.length (' ' :: after.toList) = scan false (before.length + 1) after.toList := by
        simp [scan, isSign]
      have cut := scan_append stops false 0
      rw [behind, Nat.zero_add, String.length_toList, space] at cut
      simpa [String.append_assoc] using cut
  | false =>
      have cut := scan_append (stops_of_tight spaced) false 0
      rw [behind, Nat.zero_add, String.length_toList] at cut
      simpa using cut

/-! ## Texts without placeholders -/

/-- A text that closes its double quotes and has no placeholder outside of them. -/
structure Inert (text : String) : Prop where
  closed : Closed text
  silent : placeholders text = []

private theorem scan_plain (place : Nat) {text : List Char} (plain : ∀ c ∈ text, c ≠ '"' ∧ isSign c = false) :
    scan false place text = [] ∧ quotedAfter false text = false := by
  induction text generalizing place with
  | nil => exact ⟨rfl, rfl⟩
  | cons c rest ih =>
      obtain ⟨⟨noQuote, noSign⟩, others⟩ := List.forall_mem_cons.mp plain
      have other : (c == '"') = false := beq_eq_false_iff_ne.mpr noQuote
      simpa [scan, quotedAfter_cons, noQuote, noSign, other] using ih (place + 1) others

private theorem scan_quoted {name : List Char} (noQuote : '"' ∉ name) (place : Nat) :
    scan true place name = [] ∧ quotedAfter true name = true := by
  induction name generalizing place with
  | nil => exact ⟨rfl, rfl⟩
  | cons c rest ih =>
      obtain ⟨different, others⟩ : c ≠ '"' ∧ '"' ∉ rest := by simpa [eq_comm] using noQuote
      have other : (c == '"') = false := beq_eq_false_iff_ne.mpr different
      simpa [scan, quotedAfter_cons, bne, other] using ih others (place + 1)

theorem inert_of_plain {text : String} (plain : ∀ c ∈ text.toList, c ≠ '"' ∧ isSign c = false) : Inert text where
  closed := (scan_plain 0 plain).2
  silent := (scan_plain 0 plain).1

theorem Inert.append {before after : String} (left : Inert before) (right : Inert after) :
    Inert (before ++ after) where
  closed := left.closed.append right.closed
  silent := by
    have behind : quotedAfter false before.toList = false := left.closed
    have moved := scan_add false before.toList.length 0 after.toList
    unfold placeholders
    rw [String.toList_append, scan_append_of_nil left.silent, behind, Nat.zero_add]
    rw [Nat.add_zero] at moved
    have none : scan false 0 after.toList = [] := right.silent
    rw [moved, none]
    rfl

theorem inert_quoted {name : String} (noQuote : '"' ∉ name.toList) : Inert (FieldPath.quoted name) := by
  have inside := fun place => scan_quoted noQuote place
  have letters : (FieldPath.quoted name).toList = '"' :: (name.toList ++ ['"']) := by simp [FieldPath.quoted]
  constructor
  · unfold Closed
    have opened : (false != ('"' == '"')) = true := rfl
    rw [letters, quotedAfter_cons, quotedAfter_append, opened, (inside 0).2]
    rfl
  · unfold placeholders
    rw [letters, scan]
    simp [scan_append_of_nil (inside 1).1, (inside 1).2, scan]

theorem inert_join {texts : List String} (each : ∀ text ∈ texts, Inert text) : Inert (String.join texts) := by
  induction texts with
  | nil => exact inert_of_plain (by simp [String.join])
  | cons text rest ih =>
      obtain ⟨first, others⟩ := List.forall_mem_cons.mp each
      rw [String.join_cons]
      exact first.append (ih others)

theorem inert_intercalate {separator : String} (between : Inert separator) {texts : List String}
    (each : ∀ text ∈ texts, Inert text) : Inert (separator.intercalate texts) := by
  induction texts with
  | nil => exact inert_of_plain (by simp)
  | cons text rest ih =>
      obtain ⟨first, others⟩ := List.forall_mem_cons.mp each
      cases rest with
      | nil => simpa using first
      | cons next rest =>
          rw [String.intercalate_cons_cons]
          exact (first.append between).append (ih others)

/-- Whatever a column is called, it counts for no placeholder. -/
theorem inert_path (path : FieldPath) : Inert path.text := by
  have names : ∀ name ∈ path.segments, Inert (FieldPath.quoted name) := fun _ known =>
    inert_quoted (FieldPath.quote_not_mem known)
  have opening : Inert "(" := inert_of_plain (by simp [isSign])
  have closing : Inert ")" := inert_of_plain (by simp [isSign])
  have point : Inert "." := inert_of_plain (by simp [isSign])
  unfold FieldPath.text
  match shape : path.segments with
  | [] => exact absurd shape path.nonempty
  | [only] => exact names only (by simp [shape])
  | first :: second :: rest =>
      refine ((opening.append (names first (by simp [shape]))).append closing).append (inert_join ?_)
      intro text member
      obtain ⟨name, known, rfl⟩ := List.mem_map.mp member
      exact point.append (names name (by simp only [shape]; exact List.mem_cons_of_mem _ known))

private theorem plain_of_isDigit {c : Char} (digit : c.isDigit = true) : c ≠ '"' ∧ isSign c = false := by
  constructor
  · rintro rfl
    exact absurd digit (by decide)
  · cases sign : isSign c with
    | false => rfl
    | true =>
        simp only [isSign, Bool.or_eq_true, beq_iff_eq] at sign
        rcases sign with rfl | rfl <;> exact absurd digit (by decide)

theorem closed_placeholder (backend : Backend) (ordinal : Nat) : Closed (backend.placeholder ordinal) := by
  have plain : ∀ c ∈ backend.numeral ordinal, c ≠ '"' ∧ isSign c = false := fun _ member =>
    plain_of_isDigit (Backend.isDigit_of_mem_numeral member)
  have sign : (false != (backend.sign == '"')) = false := by cases backend <;> rfl
  unfold Closed
  rw [backend.placeholder_toList, quotedAfter_cons, sign]
  exact (scan_plain 0 plain).2

/-- A placeholder alone is one placeholder, with all its digits. -/
theorem placeholders_placeholder (backend : Backend) (ordinal : Nat) :
    placeholders (backend.placeholder ordinal) = [(0, backend.placeholder ordinal)] := by
  have digit : ∀ c ∈ backend.numeral ordinal, c.isDigit = true := fun _ => Backend.isDigit_of_mem_numeral
  have silent := scan_plain 1 fun c member => plain_of_isDigit (digit c member)
  have sign : isSign backend.sign = true ∧ backend.sign ≠ '"' := by cases backend <;> decide
  have all : (backend.numeral ordinal ++ []).takeWhile Char.isDigit = backend.numeral ordinal ++ [] :=
    List.takeWhile_append_of_pos digit
  have whole : String.ofList (backend.sign :: (backend.numeral ordinal).takeWhile Char.isDigit) =
      backend.placeholder ordinal := by
    rw [List.append_nil] at all
    rw [all, ← backend.placeholder_toList, String.ofList_toList]
  unfold placeholders
  rw [backend.placeholder_toList, scan]
  simp [sign, whole, silent.1]

end FilterSql.Sql
