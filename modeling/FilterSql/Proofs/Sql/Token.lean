import FilterSql.Operator
import FilterSql.Proofs.Sql.Placeholder
import FilterSql.Sql.FieldPath
import Mathlib.Data.List.Chain

/-!
# Tokens of SQL text

The tokens that conditions are made of, and a lexer that reads a text from left to right. A quoted name runs from one
double quote to the next, whatever stands between the two. Of several words that start a text the longest is read.
-/

set_option autoImplicit false

namespace FilterSql.Sql

inductive Token where
  | opening
  | closing
  | point
  | space
  | word (operator : Operator)
  | truth
  | placeholder
  | quoted (name : String)
  deriving DecidableEq, Repr

namespace Token

/-- A token as it is written. The ordinal is the one of a placeholder. -/
def spelling (backend : Backend) (ordinal : Nat) : Token → String
  | opening => "("
  | closing => ")"
  | point => "."
  | space => " "
  | word operator => operator.name
  | truth => "true"
  | placeholder => backend.placeholder ordinal
  | quoted name => FieldPath.quoted name

def ordinalAfter (bound : Nat) : Token → Nat
  | placeholder => bound + 1
  | _ => bound

/-- The text of tokens behind `bound` arguments. The placeholders are numbered in the order of the text. -/
def spell (backend : Backend) (bound : Nat) : List Token → String
  | [] => ""
  | token :: rest => token.spelling backend (bound + 1) ++ spell backend (token.ordinalAfter bound) rest

def holes (tokens : List Token) : Nat :=
  tokens.count placeholder

/-- Whether the name before these tokens goes on with another one behind a point. The first name of a path may stand
in parentheses. -/
def continues : List Token → Bool
  | point :: quoted _ :: _ => true
  | closing :: point :: quoted _ :: _ => true
  | _ => false

def paths : List Token → List (List String)
  | [] => []
  | quoted name :: rest => if continues rest then extend name (paths rest) else [name] :: paths rest
  | _ :: rest => paths rest
where
  extend (name : String) : List (List String) → List (List String)
    | [] => [[name]]
    | first :: others => (name :: first) :: others

theorem paths_point (name next : String) (rest : List Token) :
    paths (quoted name :: point :: quoted next :: rest) = paths.extend name (paths (quoted next :: rest)) :=
  rfl

theorem paths_closing_point (name next : String) (rest : List Token) :
    paths (quoted name :: closing :: point :: quoted next :: rest) =
      paths.extend name (paths (quoted next :: rest)) :=
  rfl

def name? : Token → Option String
  | quoted name => some name
  | _ => none

private theorem flatten_extend (name : String) (found : List (List String)) :
    (paths.extend name found).flatten = name :: found.flatten := by
  cases found with
  | nil => rfl
  | cons first others => rfl

private theorem flatten_paths (tokens : List Token) : (paths tokens).flatten = tokens.filterMap name? := by
  induction tokens with
  | nil => rfl
  | cons token rest ih =>
      cases token with
      | quoted name =>
          unfold paths
          split
          · simp [flatten_extend, ih, name?]
          · simp [ih, name?]
      | opening | closing | point | space | word | truth | placeholder =>
        simpa [paths, name?, List.filterMap_cons] using ih

theorem exists_mem_paths {tokens : List Token} {name : String} (member : quoted name ∈ tokens) :
    ∃ path ∈ paths tokens, name ∈ path := by
  have known : name ∈ (paths tokens).flatten := by
    rw [flatten_paths]
    exact List.mem_filterMap.mpr ⟨_, member, rfl⟩
  exact List.mem_flatten.mp known

/-! ## Spelling several tokens -/

@[simp] theorem spell_nil (backend : Backend) (bound : Nat) : spell backend bound [] = "" := rfl

@[simp] theorem holes_nil : holes [] = 0 := rfl

@[simp] theorem holes_append (first second : List Token) : holes (first ++ second) = holes first + holes second :=
  List.count_append

@[simp] theorem holes_cons (token : Token) (rest : List Token) :
    holes (token :: rest) = (if token = placeholder then 1 else 0) + holes rest := by
  by_cases hole : token = placeholder <;> simp [holes, hole, Nat.add_comm]

theorem ordinalAfter_eq (token : Token) (bound : Nat) : token.ordinalAfter bound = bound + holes [token] := by
  cases token <;> rfl

theorem spell_append (backend : Backend) (bound : Nat) (first second : List Token) :
    spell backend bound (first ++ second) =
      spell backend bound first ++ spell backend (bound + holes first) second := by
  induction first generalizing bound with
  | nil => simp
  | cons token rest ih =>
      have shifted : token.ordinalAfter bound + holes rest = bound + holes (token :: rest) := by
        have split : holes (token :: rest) = holes [token] + holes rest := holes_append [token] rest
        rw [ordinalAfter_eq, split, Nat.add_assoc]
      simp only [List.cons_append, spell, ih, shifted, String.append_assoc]

/-! ## Reading -/

def words : List (Token × List Char) :=
  (truth, "true".toList) :: Operator.all.map fun operator => (word operator, operator.name.toList)

/-- Whether a word starts a text, and no longer word does. -/
def startsLongest (text : List Char) (candidate : Token × List Char) : Bool :=
  candidate.2.isPrefixOf text &&
    words.all fun other => !other.2.isPrefixOf text || other.2.length ≤ candidate.2.length

def readWord? (text : List Char) : Option (Token × List Char) :=
  (words.find? (startsLongest text)).map fun found => (found.1, text.drop found.2.length)

def afterDigits? (text : List Char) : Option (List Char) :=
  if text.takeWhile Char.isDigit = [] then none else some (text.dropWhile Char.isDigit)

def afterPlaceholder? : Backend → List Char → Option (List Char)
  | .postgres, '$' :: rest => afterDigits? rest
  | .sqlite, '?' :: rest => afterDigits? rest
  | .duckdb, '?' :: rest => some rest
  | _, _ => none

def read? (backend : Backend) : List Char → Option (Token × List Char)
  | [] => none
  | '(' :: rest => some (opening, rest)
  | ')' :: rest => some (closing, rest)
  | '.' :: rest => some (point, rest)
  | ' ' :: rest => some (space, rest)
  | '"' :: rest =>
    match rest.dropWhile (· != '"') with
    | [] => none
    | _ :: after => some (quoted (String.ofList (rest.takeWhile (· != '"'))), after)
  | text =>
    match afterPlaceholder? backend text with
    | some rest => some (placeholder, rest)
    | none => readWord? text

def readAll (backend : Backend) : (fuel : Nat) → List Char → Option (List Token)
  | _, [] => some []
  | 0, _ :: _ => none
  | fuel + 1, text => do
    let (token, rest) ← read? backend text
    let tokens ← readAll backend fuel rest
    some (token :: tokens)

/-- The tokens of a text, if it consists of tokens only. -/
def lex (backend : Backend) (text : String) : Option (List Token) :=
  readAll backend text.length text.toList

/-! ## Reading what was written -/

/-- Whether it shows on a token alone where it ends. -/
def endsByItself : Token → Bool
  | word _ | truth | placeholder => false
  | _ => true

/-- Whether the lexer stops between two tokens. A space is never followed by another one. -/
def mayPrecede (token next : Token) : Bool :=
  (token.endsByItself || next == space || next == opening || next == closing) && !(token == space && next == space)

/-- A text that ends any word or number before it. -/
def Ending (text : List Char) : Prop :=
  ∀ next ∈ text.head?, next ∈ [' ', '(', ')']

private theorem words_not_continued :
    ∀ word ∈ words, ∀ longer ∈ words, ∀ next ∈ [' ', '(', ')'], ¬ word.2 ++ [next] <+: longer.2 := by
  have checked : (words.all fun word => words.all fun longer =>
      [' ', '(', ')'].all fun next => !(word.2 ++ [next]).isPrefixOf longer.2) = true := by
    decide +kernel
  simpa only [List.all_eq_true, Bool.not_eq_true', ← Bool.not_eq_true, List.isPrefixOf_iff_prefix] using checked

private theorem words_injective : ∀ word ∈ words, ∀ other ∈ words, word.2 = other.2 → word = other := by
  decide +kernel

/-- A word at the start of a text is read if its end is an end of words. -/
theorem readWord?_append {token : Token} {letters rest : List Char} (member : (token, letters) ∈ words)
    (ending : Ending rest) : readWord? (letters ++ rest) = some (token, rest) := by
  have longest : ∀ other ∈ words, other.2 <+: letters ++ rest → other.2.length ≤ letters.length := by
    intro other known start
    rcases Nat.lt_or_ge letters.length other.2.length with longer | shorter
    · obtain ⟨beyond, same⟩ :=
        List.prefix_of_prefix_length_le (List.prefix_append letters rest) start (Nat.le_of_lt longer)
      -- The longer word would go on with the character that ends this one.
      cases beyond with
      | nil => simp [← same] at longer
      | cons next more =>
          rw [← same, List.prefix_append_right_inj] at start
          obtain ⟨tail, rfl⟩ := start
          have stop := ending next (by simp)
          exact absurd ⟨more, by simp [← same]⟩ (words_not_continued _ member _ known next stop)
    · exact shorter
  have chosen : startsLongest (letters ++ rest) (token, letters) = true := by
    simp only [startsLongest, Bool.and_eq_true, List.isPrefixOf_iff_prefix, List.prefix_append, true_and,
      List.all_eq_true, Bool.or_eq_true, Bool.not_eq_eq_eq_not, Bool.not_true, decide_eq_true_eq]
    intro other known
    by_cases start : other.2 <+: letters ++ rest
    · exact .inr (longest other known start)
    · exact .inl (by simpa [← List.isPrefixOf_iff_prefix] using start)
  have found : words.find? (startsLongest (letters ++ rest)) = some (token, letters) := by
    cases search : words.find? (startsLongest (letters ++ rest)) with
    | none => exact absurd chosen (by simpa using List.find?_eq_none.mp search _ member)
    | some other =>
        have known := List.mem_of_find?_eq_some search
        have picked := List.find?_some search
        simp only [startsLongest, Bool.and_eq_true, List.all_eq_true, Bool.or_eq_true] at picked
        have start := List.isPrefixOf_iff_prefix.mp picked.1
        have short := longest other known start
        have long := picked.2 _ member
        simp only [List.isPrefixOf_iff_prefix.mpr (List.prefix_append letters rest), Bool.not_true,
          Bool.false_eq_true, decide_eq_true_eq, false_or] at long
        have same := List.prefix_of_prefix_length_le (List.prefix_append letters rest) start long
        rw [words_injective _ member _ known (same.eq_of_length_le short)]
  simp [readWord?, found]

/-- No two tokens run together, and no two spaces follow each other. -/
def Separated (tokens : List Token) : Prop :=
  tokens.IsChain fun token next => token.mayPrecede next = true

/-- No quoted name ends before its end. -/
def Quotable (tokens : List Token) : Prop :=
  ∀ name, quoted name ∈ tokens → '"' ∉ name.toList

private theorem read?_word (backend : Backend) {c : Char} (text : List Char)
    (unsigned : c ∉ ['(', ')', '.', ' ', '"', '$', '?']) : read? backend (c :: text) = readWord? (c :: text) := by
  simp only [List.mem_cons, List.not_mem_nil, or_false, not_or] at unsigned
  obtain ⟨notOpening, notClosing, notPoint, notSpace, notQuote, notDollar, notQuestion⟩ := unsigned
  have noPlaceholder : afterPlaceholder? backend (c :: text) = none := by
    cases backend <;> simp [afterPlaceholder?, notDollar, notQuestion]
  simp [read?, notOpening, notClosing, notPoint, notSpace, notQuote, noPlaceholder]

private theorem words_unsigned :
    ∀ word ∈ words, ∃ c text, word.2 = c :: text ∧ c ∉ ['(', ')', '.', ' ', '"', '$', '?'] := by
  intro word member
  have first : word.2.head?.any (fun c => c ∉ ['(', ')', '.', ' ', '"', '$', '?']) = true := by
    revert word
    decide +kernel
  cases letters : word.2 with
  | nil => simp [letters] at first
  | cons c text => exact ⟨c, text, rfl, by simpa [letters] using first⟩

private theorem read?_append_of_mem_words (backend : Backend) {token : Token} {letters rest : List Char}
    (member : (token, letters) ∈ words) (ending : Ending rest) :
    read? backend (letters ++ rest) = some (token, rest) := by
  obtain ⟨c, text, start, unsigned⟩ := words_unsigned _ member
  have found := readWord?_append member ending
  cases start
  rw [List.cons_append, read?_word backend _ unsigned]
  exact found

private theorem afterDigits?_append {digits rest : List Char} (all : ∀ c ∈ digits, c.isDigit = true)
    (some : digits ≠ []) (ending : Ending rest) : afterDigits? (digits ++ rest) = .some rest := by
  have stop : rest.takeWhile Char.isDigit = [] ∧ rest.dropWhile Char.isDigit = rest := by
    cases rest with
    | nil => simp
    | cons next more =>
        have notDigit : next.isDigit = false := by
          have known := ending next (by simp)
          simp only [List.mem_cons, List.not_mem_nil, or_false] at known
          rcases known with rfl | rfl | rfl <;> decide
        simp [notDigit]
  simp [afterDigits?, List.takeWhile_append_of_pos all, List.dropWhile_append_of_pos all, stop, some]

/-- A token is read off the start of a text, together with nothing of what follows it. -/
theorem read?_spelling (backend : Backend) (ordinal : Nat) {token : Token} {rest : List Char}
    (quotable : ∀ name, token = quoted name → '"' ∉ name.toList)
    (ending : token.endsByItself = false → Ending rest) :
    read? backend ((token.spelling backend ordinal).toList ++ rest) = some (token, rest) := by
  cases token with
  | opening | closing | point | space => simp [spelling, read?]
  | quoted name =>
      have closed : ∀ c ∈ name.toList, (c != '"') = true := by
        intro c member
        have different : c ≠ '"' := fun same => quotable name rfl (same ▸ member)
        simpa using different
      simp [spelling, FieldPath.quoted, read?, List.dropWhile_append_of_pos closed,
        List.takeWhile_append_of_pos closed]
  | placeholder =>
      have stop := ending rfl
      simp only [spelling, Backend.placeholder_toList, List.cons_append]
      have digits : ∀ c ∈ backend.numeral ordinal, c.isDigit = true := fun _ => Backend.isDigit_of_mem_numeral
      cases backend with
      | postgres =>
          simp [read?, Backend.sign, afterPlaceholder?,
            afterDigits?_append digits (Backend.numeral_ne_nil (by simp) ordinal) stop]
      | sqlite =>
          simp [read?, Backend.sign, afterPlaceholder?,
            afterDigits?_append digits (Backend.numeral_ne_nil (by simp) ordinal) stop]
      | duckdb => simp [read?, Backend.sign, Backend.numeral, afterPlaceholder?]
  | truth => exact read?_append_of_mem_words backend (by simp [words, spelling]) (ending rfl)
  | word operator =>
      have known : operator ∈ Operator.all := by cases operator <;> decide
      exact read?_append_of_mem_words backend (by simp [words, spelling, known]) (ending rfl)

theorem spelling_ne_nil (backend : Backend) (ordinal : Nat) (token : Token) :
    (token.spelling backend ordinal).toList ≠ [] := by
  cases token with
  | word operator => cases operator <;> simp [spelling, Operator.name]
  | quoted name => simp [spelling, FieldPath.quoted]
  | placeholder => simp [spelling, Backend.placeholder_toList]
  | opening | closing | point | space | truth => simp [spelling]

theorem length_le_spell (backend : Backend) (bound : Nat) (tokens : List Token) :
    tokens.length ≤ (spell backend bound tokens).length := by
  induction tokens generalizing bound with
  | nil => simp
  | cons token rest ih =>
      have one := List.length_pos_iff.mpr (spelling_ne_nil backend (bound + 1) token)
      have others := ih (token.ordinalAfter bound)
      simp only [String.length_toList] at one
      simp only [spell, List.length_cons, String.length_append]
      omega

private theorem ending_spell {backend : Backend} {bound : Nat} {token : Token} {rest : List Token}
    (separated : Separated (token :: rest)) (run : token.endsByItself = false) :
    Ending (spell backend bound rest).toList := by
  cases rest with
  | nil => simp [spell, Ending]
  | cons next more =>
      have stop : next = space ∨ next = opening ∨ next = closing := by
        have pair := (List.isChain_cons_cons.mp separated).1
        simpa [mayPrecede, run, or_assoc] using (Bool.and_eq_true_iff.mp pair).1
      rcases stop with rfl | rfl | rfl <;> simp [spell, spelling, Ending]

theorem readAll_spell (backend : Backend) {tokens : List Token} (quotable : Quotable tokens)
    (separated : Separated tokens) {fuel : Nat} (enough : tokens.length ≤ fuel) (bound : Nat) :
    readAll backend fuel (spell backend bound tokens).toList = some tokens := by
  induction tokens generalizing fuel bound with
  | nil => simp [spell, readAll]
  | cons token rest ih =>
      cases fuel with
      | zero => simp at enough
      | succ fuel =>
          have stop : token.endsByItself = false → Ending (spell backend (token.ordinalAfter bound) rest).toList :=
            ending_spell separated
          have first := read?_spelling backend (bound + 1) (fun name same => quotable name (by simp [same])) stop
          have others := ih (fun name member => quotable name (List.mem_cons_of_mem _ member)) separated.tail
            (Nat.le_of_succ_le_succ enough) (token.ordinalAfter bound)
          obtain ⟨c, text, shape⟩ := List.exists_cons_of_ne_nil (spelling_ne_nil backend (bound + 1) token)
          simp only [spell, String.toList_append]
          rw [shape, List.cons_append] at first ⊢
          simp [readAll, first, others]

/-- The lexer finds the tokens that a text was written with. -/
theorem lex_spell (backend : Backend) {tokens : List Token} (quotable : Quotable tokens)
    (separated : Separated tokens) (bound : Nat) : lex backend (spell backend bound tokens) = some tokens :=
  readAll_spell backend quotable separated (length_le_spell backend bound tokens) bound

end Token

end FilterSql.Sql
