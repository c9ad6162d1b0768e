import FilterSql.Proofs.Schema.Descent
import FilterSql.Proofs.Schema.Words
import Mathlib.Computability.Language

/-!
# The form of paths and their parts

Whether a text is a path is found by reading it from left to right, and the names in it by cutting it at its points.
Both go by one pattern. Behind the check of the form, then, there is always a name to look for, every such name is a
word, and every field that is found has a path of at least one column.
-/

set_option autoImplicit false

namespace FilterSql.Schema

open Computability
open Sql (FieldPath)

/-! ## The pattern -/

/-- One or more letters, digits and underscores. -/
def wordPattern : Language Char :=
  {chars | chars ≠ [] ∧ ∀ c ∈ chars, isWordChar c = true}

/-- Any number of words with a point behind each, then a last word. -/
def pathPattern : Language Char :=
  (wordPattern * {['.']})∗ * wordPattern

theorem point_not_mem_of_mem_wordPattern {chars : List Char} (word : chars ∈ wordPattern) : '.' ∉ chars := by
  intro point
  have wordChar := word.2 '.' point
  rw [not_isWordChar_point] at wordChar
  cases wordChar

theorem splitAtPoints_eq_splitOn (chars : List Char) : splitAtPoints chars = chars.splitOn '.' := by
  induction chars with
  | nil => rfl
  | cons c rest ih =>
      rw [List.splitOn_cons_eq_if_modifyHead, ← ih]
      obtain ⟨first, others, split⟩ := List.exists_cons_of_ne_nil (splitAtPoints_ne_nil rest)
      by_cases point : c = '.'
      · simp [splitAtPoints, point]
      · simp [splitAtPoints_cons_of_ne point split, split, point]

theorem forall_mem_wordPattern_of_mem_pathPattern {chars : List Char} (matched : chars ∈ pathPattern) :
    ∀ piece ∈ splitAtPoints chars, piece ∈ wordPattern := by
  obtain ⟨front, starred, last, lastWord, rfl⟩ := Language.mem_mul.mp matched
  obtain ⟨groups, rfl, each⟩ := Language.mem_kstar.mp starred
  clear matched starred
  induction groups with
  | nil =>
      rw [List.flatten_nil, List.nil_append, splitAtPoints_of_not_mem (point_not_mem_of_mem_wordPattern lastWord)]
      simpa using lastWord
  | cons group groups ih =>
      obtain ⟨first, others⟩ := List.forall_mem_cons.mp each
      obtain ⟨word, isWord, _, rfl, rfl⟩ := Language.mem_mul.mp first
      have cut : splitAtPoints (((word ++ ['.']) :: groups).flatten ++ last) =
          word :: splitAtPoints (groups.flatten ++ last) := by
        rw [List.flatten_cons, List.append_assoc, List.append_assoc, List.singleton_append, splitAtPoints_append,
          splitAtPoints_of_not_mem (point_not_mem_of_mem_wordPattern isWord), List.singleton_append]
      rw [cut]
      exact List.forall_mem_cons.mpr ⟨isWord, ih others⟩

theorem mem_pathPattern_of_pieces {pieces : List (List Char)} (nonempty : pieces ≠ [])
    (each : ∀ piece ∈ pieces, piece ∈ wordPattern) : ['.'].intercalate pieces ∈ pathPattern := by
  induction pieces with
  | nil => exact absurd rfl nonempty
  | cons piece pieces ih =>
      obtain ⟨word, others⟩ := List.forall_mem_cons.mp each
      cases pieces with
      | nil =>
          rw [List.intercalate_singleton]
          exact ⟨[], ⟨[], rfl, by simp⟩, piece, word, rfl⟩
      | cons second rest =>
          obtain ⟨_, ⟨groups, rfl, points⟩, last, lastWord, shape⟩ := ih (List.cons_ne_nil _ _) others
          rw [List.intercalate_cons_cons, ← shape]
          refine ⟨_, ⟨(piece ++ ['.']) :: groups, rfl, ?_⟩, last, lastWord, by simp⟩
          exact List.forall_mem_cons.mpr ⟨⟨piece, word, ['.'], rfl, rfl⟩, points⟩

/-- A path has the pattern if each of the pieces between its points is a word. -/
theorem mem_pathPattern_iff {chars : List Char} :
    chars ∈ pathPattern ↔ ∀ piece ∈ splitAtPoints chars, piece ∈ wordPattern := by
  constructor
  · exact forall_mem_wordPattern_of_mem_pathPattern
  · intro each
    rw [← intercalate_splitAtPoints chars]
    exact mem_pathPattern_of_pieces (splitAtPoints_ne_nil chars) each

theorem isDottedPath_iff_pieces {path : String} :
    isDottedPath path = true ↔ ∀ piece ∈ splitAtPoints path.toList, piece ∈ wordPattern := by
  rw [isDottedPath_iff_segments]
  unfold pathSegments IsWord
  rw [List.forall_mem_map]
  simp only [String.toList_ofList, ne_eq, String.ofList_eq_empty_iff]
  exact Iff.rfl

theorem isDottedPath_iff_mem_pathPattern {path : String} :
    isDottedPath path = true ↔ path.toList ∈ pathPattern :=
  isDottedPath_iff_pieces.trans mem_pathPattern_iff.symm

/-! ## What is rejected behind the check of the form -/

variable {ρ : Type} [RecordType ρ]

theorem lost_of_storedField {path : String} {record : ρ} {name : String} {error : CompileError}
    (rejected : storedField path record name = .error error) : Lost error := by
  unfold storedField at rejected
  cases found : findField record name with
  | none =>
      rw [found] at rejected
      cases rejected
      exact .unknown
  | some field =>
      rw [found] at rejected
      dsimp only at rejected
      split at rejected
      · cases rejected
        exact .unstored
      · cases rejected

theorem lost_of_followSegments {path : String} {field : Field ρ} {names : List String} {error : CompileError}
    (rejected : followSegments path field names = .error error) : Lost error := by
  induction names generalizing field with
  | nil => cases rejected
  | cons name rest ih =>
      unfold followSegments at rejected
      cases behind : field.nested with
      | none =>
          rw [behind] at rejected
          cases rejected
          exact .unknown
      | some record =>
          rw [behind] at rejected
          rcases error_of_bind rejected with stored | ⟨next, _, rejected⟩
          · exact lost_of_storedField stored
          · rcases error_of_bind rejected with followed | ⟨_, _, accepted⟩
            · exact ih followed
            · cases accepted

theorem lost_of_descend {path : String} {record : ρ} {names : List String} {error : CompileError} (some : names ≠ [])
    (rejected : descend path record names = .error error) : Lost error := by
  cases names with
  | nil => exact absurd rfl some
  | cons name rest =>
      rw [descend_cons] at rejected
      rcases error_of_bind rejected with stored | ⟨field, _, followed⟩
      · exact lost_of_storedField stored
      · exact lost_of_followSegments followed

theorem columns_ne_nil_of_descend {path : String} {record : ρ} {names : List String} {found : List String × Field ρ}
    (some : names ≠ []) (followed : descend path record names = .ok found) : found.1 ≠ [] := by
  rw [← List.length_pos_iff, length_descend followed, List.length_pos_iff]
  exact some

theorem exists_identifier_of_ofSegments {segments : List String} {error : CompileError} (some : segments ≠ [])
    (rejected : FieldPath.ofSegments segments = .error error) : ∃ name, error = .invalidIdentifier name := by
  unfold FieldPath.ofSegments at rejected
  rw [dif_neg some] at rejected
  split at rejected
  next segment _ =>
    cases rejected
    exact ⟨segment, rfl⟩
  next => cases rejected

theorem resolve_error_of_dotted {record : ρ} {path : String} {error : CompileError}
    (dotted : isDottedPath path = true) (rejected : resolve (some record) path = .error error) :
    Lost error ∨ ∃ name, error = .invalidIdentifier name := by
  have names := pathSegments_ne_nil path
  rw [resolve_dotted record dotted] at rejected
  rcases error_of_bind rejected with lost | ⟨found, followed, rejected⟩
  · exact .inl (lost_of_descend names lost)
  · rcases error_of_bind rejected with unquoted | ⟨_, _, accepted⟩
    · exact .inr (exists_identifier_of_ofSegments (columns_ne_nil_of_descend names followed) unquoted)
    · cases accepted

theorem resolve_none_of_dotted {path : String} (dotted : isDottedPath path = true) :
    resolve (none : Option ρ) path = .error (.noSchemaProvided path) := by
  simp [resolve, dotted]

theorem resolve_of_not_dotted (schema : Option ρ) {path : String} (undotted : isDottedPath path = false) :
    resolve schema path = .error (.invalidPath path) := by
  simp [resolve, undotted]

/-- Only a text that is not of the form of a path is rejected as an invalid path. -/
theorem resolve_invalidPath_iff {schema : Option ρ} {path rejected : String} :
    resolve schema path = .error (.invalidPath rejected) ↔ isDottedPath path = false ∧ rejected = path := by
  cases dotted : isDottedPath path with
  | false => simp [resolve_of_not_dotted schema dotted, eq_comm]
  | true =>
      simp only [Bool.true_eq_false, false_and, iff_false]
      intro refused
      cases schema with
      | none =>
          rw [resolve_none_of_dotted dotted] at refused
          cases refused
      | some record =>
          rcases resolve_error_of_dotted dotted refused with lost | ⟨name, identifier⟩
          · cases lost
          · cases identifier

theorem resolve_noSchemaProvided_iff {schema : Option ρ} {path rejected : String} :
    resolve schema path = .error (.noSchemaProvided rejected) ↔
      schema = none ∧ isDottedPath path = true ∧ rejected = path := by
  cases dotted : isDottedPath path with
  | false => simp [resolve_of_not_dotted schema dotted]
  | true =>
      cases schema with
      | none => simp [resolve_none_of_dotted dotted, eq_comm]
      | some record =>
          simp only [reduceCtorEq, false_and, iff_false]
          intro refused
          rcases resolve_error_of_dotted dotted refused with lost | ⟨name, identifier⟩
          · cases lost
          · cases identifier

/-! ## Ends that are never reached -/

/-- Resolution with other answers where there is no name to look for and where a path of no columns would be made. -/
def resolveOr (noName noColumn : Except CompileError (Resolved ρ)) (schema : Option ρ) (path : String) :
    Except CompileError (Resolved ρ) :=
  if !isDottedPath path then .error (.invalidPath path)
  else
    match schema, pathSegments path with
    | none, _ => .error (.noSchemaProvided path)
    | some _, [] => noName
    | some record, first :: rest => do
      let field ← storedField path record first
      let (columns, last) ← followSegments path field rest
      if columns = [] then noColumn
      else
        let columnPath ← FieldPath.ofSegments columns
        .ok ⟨columnPath, last⟩

theorem resolveOr_eq (noName noColumn : Except CompileError (Resolved ρ)) (schema : Option ρ) (path : String) :
    resolveOr noName noColumn schema path = resolve schema path := by
  unfold resolveOr resolve
  split
  · rfl
  · cases schema with
    | none => rfl
    | some record =>
        obtain ⟨first, rest, segments⟩ := List.exists_cons_of_ne_nil (pathSegments_ne_nil path)
        rw [segments]
        dsimp only
        cases storedField path record first with
        | error error => rfl
        | ok field =>
            cases followed : followSegments path field rest with
            | error error => simp [followed, bind, Except.bind]
            | ok found =>
                have some : found.1 ≠ [] := by
                  rw [← List.length_pos_iff, length_followSegments followed]
                  exact Nat.succ_pos _
                simp [followed, some, bind, Except.bind]

/-! ## Form and parts together -/

/-- What the form of a text tells of its pieces, and of what becomes of it where a path is resolved. -/
structure GoesByForm (schema : Option ρ) (path : String) : Prop where
  /-- The pieces are cut off at every point. -/
  segments : pathSegments path = (path.toList.splitOn '.').map String.ofList
  pattern : isDottedPath path = true ↔ path.toList ∈ pathPattern
  pieces : isDottedPath path = true ↔
    ∀ piece ∈ path.toList.splitOn '.', piece ≠ [] ∧ ∀ c ∈ piece, isWordChar c = true
  invalid : ∀ rejected, resolve schema path = .error (.invalidPath rejected) ↔
    isDottedPath path = false ∧ rejected = path
  /-- The form is looked at before the record type. -/
  missing : ∀ rejected, resolve schema path = .error (.noSchemaProvided rejected) ↔
    schema = none ∧ isDottedPath path = true ∧ rejected = path
  names : isDottedPath path = true → pathSegments path ≠ [] ∧ ∀ name ∈ pathSegments path, name ≠ "" ∧ IsWord name
  /-- What would be answered without a name or without a column is of no account. -/
  unreached : ∀ noName noColumn, resolveOr noName noColumn schema path = resolve schema path

/-- The one check of the form, before anything else, makes sure of every piece that is looked for behind it. -/
theorem resolve_goesByForm (schema : Option ρ) (path : String) : GoesByForm schema path where
  segments := by rw [← splitAtPoints_eq_splitOn, pathSegments]
  pattern := isDottedPath_iff_mem_pathPattern
  pieces := by
    rw [← splitAtPoints_eq_splitOn]
    exact isDottedPath_iff_pieces
  invalid _ := resolve_invalidPath_iff
  missing _ := resolve_noSchemaProvided_iff
  names dotted := ⟨pathSegments_ne_nil path, isDottedPath_iff_segments.mp dotted⟩
  unreached noName noColumn := resolveOr_eq noName noColumn schema path

/-- A line feed at the end is not of the last word, and letters are those of ASCII. -/
example :
    ["a", "a_1.B", "", "a.", ".a", "a..b", "a\n", "a.b\n", "\u00e9", "a b"].map isDottedPath =
      [true, true, false, false, false, false, false, false, false, false] := by
  decide +kernel

end FilterSql.Schema
