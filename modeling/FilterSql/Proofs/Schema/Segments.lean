import FilterSql.Schema.DottedPath

/-!
# Paths in parts

A path is split at its points, wherever these stand. Paths put together with a point are split into the names of the
one and then those of the other.
-/

set_option autoImplicit false

namespace FilterSql.Schema

/-! ## Splitting -/

theorem splitAtPoints_ne_nil (path : List Char) : splitAtPoints path ≠ [] := by
  cases path with
  | nil => simp [splitAtPoints]
  | cons c rest =>
      unfold splitAtPoints
      split
      · exact List.cons_ne_nil _ _
      · split <;> exact List.cons_ne_nil _ _

theorem splitAtPoints_append (front back : List Char) :
    splitAtPoints (front ++ '.' :: back) = splitAtPoints front ++ splitAtPoints back := by
  induction front with
  | nil => simp [splitAtPoints]
  | cons c rest ih =>
      rw [List.cons_append]
      by_cases point : c = '.'
      · simp [splitAtPoints, point, ih]
      · simp only [splitAtPoints, point, if_false, ih]
        cases found : splitAtPoints rest with
        | nil => exact absurd found (splitAtPoints_ne_nil rest)
        | cons first others => rfl

theorem splitAtPoints_of_not_mem {name : List Char} (unbroken : '.' ∉ name) : splitAtPoints name = [name] := by
  induction name with
  | nil => rfl
  | cons c rest ih =>
      have plain : c ≠ '.' := (List.ne_of_not_mem_cons unbroken).symm
      simp only [splitAtPoints, plain, if_false, ih (List.not_mem_of_not_mem_cons unbroken)]

theorem pathSegments_append (front back : String) :
    pathSegments (front ++ "." ++ back) = pathSegments front ++ pathSegments back := by
  have chars : (front ++ "." ++ back).toList = front.toList ++ '.' :: back.toList := by simp
  unfold pathSegments
  rw [chars, splitAtPoints_append, List.map_append]

theorem pathSegments_ne_nil (path : String) : pathSegments path ≠ [] := by
  unfold pathSegments
  simpa using splitAtPoints_ne_nil path.toList

theorem pathSegments_intercalate {names : List String} (nonempty : names ≠ [])
    (unbroken : ∀ name ∈ names, '.' ∉ name.toList) :
    pathSegments (".".intercalate names) = names := by
  induction names with
  | nil => exact absurd rfl nonempty
  | cons name rest ih =>
      obtain ⟨first, others⟩ := List.forall_mem_cons.mp unbroken
      cases rest with
      | nil => simp [pathSegments, splitAtPoints_of_not_mem first]
      | cons second rest =>
          have alone : pathSegments name = [name] := by simp [pathSegments, splitAtPoints_of_not_mem first]
          rw [String.intercalate_cons_cons, pathSegments_append, alone, ih (List.cons_ne_nil _ _) others]
          rfl

/-! ## Form -/

theorem acceptsPath_append {front back : List Char} {inWord : Bool} (accepted : acceptsPath inWord front = true)
    (acceptedBack : acceptsPath false back = true) : acceptsPath inWord (front ++ '.' :: back) = true := by
  induction front generalizing inWord with
  | nil =>
      have point : isWordChar '.' = false := by decide
      have begun : inWord = true := accepted
      simp [acceptsPath, point, begun, acceptedBack]
  | cons c rest ih =>
      rw [List.cons_append]
      unfold acceptsPath at accepted ⊢
      by_cases word : isWordChar c = true
      · rw [if_pos word] at accepted ⊢
        exact ih accepted
      · rw [if_neg word] at accepted ⊢
        obtain ⟨between, following⟩ := Bool.and_eq_true_iff.mp accepted
        rw [between, ih following, Bool.and_self]

theorem isDottedPath_append {front back : String} (dotted : isDottedPath front = true)
    (dottedBack : isDottedPath back = true) : isDottedPath (front ++ "." ++ back) = true := by
  have chars : (front ++ "." ++ back).toList = front.toList ++ '.' :: back.toList := by simp
  unfold isDottedPath
  rw [chars]
  exact acceptsPath_append dotted dottedBack

end FilterSql.Schema
