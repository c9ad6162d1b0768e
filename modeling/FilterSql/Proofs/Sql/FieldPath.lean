import FilterSql.Sql.FieldPath

/-!
# Column paths and their names

A path is its names, and the names are those that can stand between double quotes.
-/

set_option autoImplicit false

namespace FilterSql.Sql.FieldPath

theorem eq_of_segments {left right : FieldPath} (same : left.segments = right.segments) : left = right := by
  cases left
  cases right
  cases same
  rfl

theorem ofSegments_ok_iff {segments : List String} {path : FieldPath} :
    ofSegments segments = .ok path ↔ path.segments = segments := by
  constructor
  · intro accepted
    unfold ofSegments at accepted
    split at accepted
    · cases accepted
    · split at accepted
      · cases accepted
      · cases accepted
        rfl
  · rintro rfl
    have quotable : path.segments.find? (fun segment => !isIdentifier segment) = none := by
      rw [List.find?_eq_none]
      intro segment member
      simp [path.identifiers segment member]
    unfold ofSegments
    rw [dif_neg path.nonempty]
    split
    next segment found =>
      rw [quotable] at found
      cases found
    next => rfl

/-- No name ends before its end. -/
theorem quote_not_mem {path : FieldPath} {name : String} (member : name ∈ path.segments) : '"' ∉ name.toList := by
  have identifier := path.identifiers name member
  simp only [isIdentifier, Bool.and_eq_true, Bool.not_eq_true', List.contains_eq_mem] at identifier
  simpa using identifier.2

end FilterSql.Sql.FieldPath
