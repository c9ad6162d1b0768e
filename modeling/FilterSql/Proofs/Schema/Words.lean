import FilterSql.Proofs.Schema.Exposure
import FilterSql.Proofs.Schema.Segments

/-!
# Paths of words

A path of the right form is one that is split at its points into words, none of which is empty. Such paths are the words
put together with points.
-/

set_option autoImplicit false

namespace FilterSql.Schema

/-- Words with a point between every two of them. -/
def WordPath (path : String) : Prop :=
  ∃ words, words ≠ [] ∧ (∀ word ∈ words, word ≠ "" ∧ IsWord word) ∧ path = ".".intercalate words

theorem not_isWordChar_point : isWordChar '.' = false := by
  decide

theorem splitAtPoints_cons_of_ne {c : Char} (plain : c ≠ '.') {rest first : List Char} {others : List (List Char)}
    (split : splitAtPoints rest = first :: others) : splitAtPoints (c :: rest) = (c :: first) :: others := by
  simp only [splitAtPoints, plain, if_false, split]

/-- All segments have characters of words only, and none of them but the first one is empty, nor is that one unless a
word had begun before. -/
theorem acceptsPath_iff {chars first : List Char} {others : List (List Char)} {inWord : Bool}
    (split : splitAtPoints chars = first :: others) :
    acceptsPath inWord chars = true ↔
      (inWord = true ∨ first ≠ []) ∧ (∀ segment ∈ others, segment ≠ []) ∧
        ∀ segment ∈ first :: others, ∀ c ∈ segment, isWordChar c = true := by
  induction chars generalizing inWord first others with
  | nil =>
      obtain ⟨rfl, rfl⟩ := List.cons.inj split
      simp [acceptsPath]
  | cons c rest ih =>
      obtain ⟨next, following, splitRest⟩ := List.exists_cons_of_ne_nil (splitAtPoints_ne_nil rest)
      by_cases point : c = '.'
      · subst point
        obtain ⟨rfl, rfl⟩ := List.cons.inj ((if_pos rfl : splitAtPoints ('.' :: rest) = _).symm.trans split)
        rw [acceptsPath, if_neg (by simp [not_isWordChar_point]), splitRest]
        simp [ih splitRest, and_assoc]
      · obtain ⟨rfl, rfl⟩ := List.cons.inj ((splitAtPoints_cons_of_ne point splitRest).symm.trans split)
        by_cases word : isWordChar c = true
        · rw [acceptsPath, if_pos word, ih splitRest]
          simp [word]
        · rw [acceptsPath, if_neg word]
          simp [point, word]

theorem isDottedPath_iff_segments {path : String} :
    isDottedPath path = true ↔ ∀ segment ∈ pathSegments path, segment ≠ "" ∧ IsWord segment := by
  obtain ⟨first, others, split⟩ := List.exists_cons_of_ne_nil (splitAtPoints_ne_nil path.toList)
  have segments : (∀ segment ∈ pathSegments path, segment ≠ "" ∧ IsWord segment) ↔
      ∀ segment ∈ first :: others, segment ≠ [] ∧ ∀ c ∈ segment, isWordChar c = true := by
    unfold pathSegments IsWord
    rw [split, List.forall_mem_map]
    simp only [String.toList_ofList, ne_eq, String.ofList_eq_empty_iff]
  unfold isDottedPath
  rw [acceptsPath_iff split, segments]
  constructor
  · rintro ⟨some, each, words⟩ segment member
    refine ⟨?_, words segment member⟩
    rcases List.mem_cons.mp member with rfl | among
    · exact some.resolve_left Bool.false_ne_true
    · exact each segment among
  · intro each
    obtain ⟨head, tail⟩ := List.forall_mem_cons.mp each
    exact ⟨.inr head.1, fun segment member => (tail segment member).1, fun segment member => (each segment member).2⟩

theorem intercalate_splitAtPoints (chars : List Char) : ['.'].intercalate (splitAtPoints chars) = chars := by
  induction chars with
  | nil => rfl
  | cons c rest ih =>
      obtain ⟨next, following, split⟩ := List.exists_cons_of_ne_nil (splitAtPoints_ne_nil rest)
      rw [split] at ih
      by_cases point : c = '.'
      · subst point
        rw [splitAtPoints, if_pos rfl, split, List.intercalate_cons_cons, ih]
        rfl
      · rw [splitAtPoints_cons_of_ne point split]
        cases following with
        | nil => simpa using ih
        | cons second rest => simpa [List.intercalate_cons_cons] using ih

theorem intercalate_pathSegments (path : String) : ".".intercalate (pathSegments path) = path := by
  rw [← String.toList_inj, String.toList_intercalate, pathSegments, List.map_map]
  simp only [Function.comp_def, String.toList_ofList, List.map_id']
  exact intercalate_splitAtPoints path.toList

theorem isDottedPath_iff_wordPath {path : String} : isDottedPath path = true ↔ WordPath path := by
  rw [isDottedPath_iff_segments]
  constructor
  · intro words
    exact ⟨pathSegments path, pathSegments_ne_nil path, words, (intercalate_pathSegments path).symm⟩
  · rintro ⟨words, nonempty, each, rfl⟩
    rw [pathSegments_intercalate nonempty fun word member => unbroken_of_isWord (each word member).2]
    exact each

end FilterSql.Schema
