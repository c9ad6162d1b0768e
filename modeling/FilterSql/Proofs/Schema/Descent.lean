import FilterSql.Proofs.Failure
import FilterSql.Proofs.Schema.Segments
import FilterSql.Proofs.Sql.FieldPath
import FilterSql.Schema.Loaded
import FilterSql.Schema.Resolve

/-!
# Paths that go on

A path with another one behind it is resolved like the first path and then, from the record behind its field, like the
second. What the first path is rejected for, it is rejected for with anything behind it, but for columns that cannot be
quoted, which are looked at last.
-/

set_option autoImplicit false

namespace FilterSql

/-- The rejection of a name on another path than the one it was met on. -/
def CompileError.forPath (path : String) : CompileError → CompileError
  | .invalidPath _ => .invalidPath path
  | .noStorageMapping field record _ => .noStorageMapping field record path
  | error => error

/-! ## Column paths -/

namespace Sql.FieldPath

def append (front back : FieldPath) : FieldPath where
  segments := front.segments ++ back.segments
  nonempty := List.append_ne_nil_of_left_ne_nil front.nonempty _
  identifiers := List.forall_mem_append.mpr ⟨front.identifiers, back.identifiers⟩

instance : Append FieldPath :=
  ⟨append⟩

@[simp] theorem segments_append (front back : FieldPath) : (front ++ back).segments = front.segments ++ back.segments :=
  rfl

end Sql.FieldPath

namespace Schema

open Sql (FieldPath)

variable {ρ : Type} [RecordType ρ]

/-! ## From a record along names -/

/-- Follows the names from a record on. Gives the columns on the way and the last field. -/
def descend (path : String) (record : ρ) : List String → Except CompileError (List String × Field ρ)
  | [] => .error (.invalidPath path)
  | name :: rest => do
    let field ← storedField path record name
    followSegments path field rest

theorem descend_cons (path : String) (record : ρ) (name : String) (rest : List String) :
    descend path record (name :: rest) = (do
      let field ← storedField path record name
      followSegments path field rest) :=
  rfl

/-- Follows the names from the record behind a field on. -/
def descendFrom (path : String) (field : Field ρ) (name : String) (rest : List String) :
    Except CompileError (List String × Field ρ) :=
  match field.nested with
  | none => .error (.unknownField name field.typeName)
  | some record => descend path record (name :: rest)

theorem descendFrom_none (path : String) {field : Field ρ} (scalar : field.nested = none) (name : String)
    (rest : List String) : descendFrom path field name rest = .error (.unknownField name field.typeName) := by
  unfold descendFrom
  rw [scalar]

theorem descendFrom_nested (path : String) {field : Field ρ} {record : ρ} (behind : field.nested = some record)
    (name : String) (rest : List String) : descendFrom path field name rest = descend path record (name :: rest) := by
  unfold descendFrom
  rw [behind]

theorem descendFrom_ok {path : String} {field : Field ρ} {name : String} {rest : List String}
    {found : List String × Field ρ} (descended : descendFrom path field name rest = .ok found) :
    ∃ record, field.nested = some record ∧ descend path record (name :: rest) = .ok found := by
  cases behind : field.nested with
  | none =>
      rw [descendFrom_none path behind] at descended
      cases descended
  | some record =>
      rw [descendFrom_nested path behind] at descended
      exact ⟨record, rfl, descended⟩

theorem followSegments_cons (path : String) (field : Field ρ) (name : String) (rest : List String) :
    followSegments path field (name :: rest) = (do
      let found ← descendFrom path field name rest
      .ok (field.column :: found.1, found.2)) := by
  unfold followSegments descendFrom
  cases field.nested with
  | none => rfl
  | some record =>
      dsimp only
      rw [descend_cons]
      cases storedField path record name with
      | error error => rfl
      | ok next =>
          change (followSegments path next rest >>= _) = (followSegments path next rest >>= _)
          cases followSegments path next rest <;> rfl

theorem followSegments_append (path : String) (field : Field ρ) (front : List String) (name : String)
    (rest : List String) :
    followSegments path field (front ++ name :: rest) = (do
      let first ← followSegments path field front
      let second ← descendFrom path first.2 name rest
      .ok (first.1 ++ second.1, second.2)) := by
  induction front generalizing field with
  | nil => exact followSegments_cons path field name rest
  | cons head front ih =>
      rw [List.cons_append, followSegments_cons, followSegments_cons]
      cases behind : field.nested with
      | none =>
          rw [descendFrom_none path behind, descendFrom_none path behind]
          rfl
      | some record =>
          rw [descendFrom_nested path behind, descendFrom_nested path behind, descend_cons, descend_cons]
          cases storedField path record head with
          | error error => rfl
          | ok next =>
              simp only [bind, Except.bind, ih]
              cases followSegments path next front with
              | error error => rfl
              | ok found =>
                  dsimp only
                  cases descendFrom path found.2 name rest <;> rfl

theorem descend_append (path : String) (record : ρ) {front : List String} (nonempty : front ≠ []) (name : String)
    (rest : List String) :
    descend path record (front ++ name :: rest) = (do
      let first ← descend path record front
      let second ← descendFrom path first.2 name rest
      .ok (first.1 ++ second.1, second.2)) := by
  cases front with
  | nil => exact absurd rfl nonempty
  | cons head front =>
      rw [List.cons_append, descend_cons, descend_cons]
      cases storedField path record head with
      | error error => rfl
      | ok field => exact followSegments_append path field front name rest

/-! ## One way, whatever the path is called -/

theorem storedField_forPath (path other : String) (record : ρ) (name : String) :
    storedField other record name = (storedField path record name).mapError (CompileError.forPath other) := by
  unfold storedField
  cases findField record name with
  | none => rfl
  | some field =>
      dsimp only
      split <;> rfl

theorem followSegments_forPath (path other : String) (field : Field ρ) (names : List String) :
    followSegments other field names = (followSegments path field names).mapError (CompileError.forPath other) := by
  induction names generalizing field with
  | nil => rfl
  | cons name rest ih =>
      unfold followSegments
      cases field.nested with
      | none => rfl
      | some record =>
          dsimp only
          rw [storedField_forPath path other]
          cases storedField path record name with
          | error error => rfl
          | ok next =>
              change (followSegments other next rest >>= _) = _
              rw [ih]
              change _ = Except.mapError _ (followSegments path next rest >>= _)
              cases followSegments path next rest <;> rfl

theorem descend_forPath (path other : String) (record : ρ) (names : List String) :
    descend other record names = (descend path record names).mapError (CompileError.forPath other) := by
  cases names with
  | nil => rfl
  | cons name rest =>
      rw [descend_cons, descend_cons, storedField_forPath path other]
      cases storedField path record name with
      | error error => rfl
      | ok field => exact followSegments_forPath path other field rest

theorem descend_ok_forPath {path : String} (other : String) {record : ρ} {names : List String}
    {found : List String × Field ρ} (followed : descend path record names = .ok found) :
    descend other record names = .ok found := by
  rw [descend_forPath path other, followed]
  rfl

/-! ## One column for each name -/

theorem length_followSegments {path : String} {field : Field ρ} {names : List String} {found : List String × Field ρ}
    (followed : followSegments path field names = .ok found) : found.1.length = names.length + 1 := by
  induction names generalizing field found with
  | nil =>
      cases followed
      rfl
  | cons name rest ih =>
      rw [followSegments_cons] at followed
      obtain ⟨further, continued, rejoined⟩ := ok_of_bind followed
      cases rejoined
      obtain ⟨record, _, descended⟩ := descendFrom_ok continued
      rw [descend_cons] at descended
      obtain ⟨next, _, further⟩ := ok_of_bind descended
      rw [List.length_cons, List.length_cons, ih further]

theorem length_descend {path : String} {record : ρ} {names : List String} {found : List String × Field ρ}
    (followed : descend path record names = .ok found) : found.1.length = names.length := by
  cases names with
  | nil => cases followed
  | cons name rest =>
      rw [descend_cons] at followed
      obtain ⟨field, _, further⟩ := ok_of_bind followed
      exact length_followSegments further

/-! ## Resolution -/

theorem resolve_dotted (record : ρ) {path : String} (dotted : isDottedPath path = true) :
    resolve (some record) path = (do
      let found ← descend path record (pathSegments path)
      let columnPath ← FieldPath.ofSegments found.1
      .ok ⟨columnPath, found.2⟩) := by
  unfold resolve
  rw [dotted]
  cases pathSegments path with
  | nil => rfl
  | cons first rest =>
      unfold descend
      simp only [Bool.not_true, Bool.false_eq_true, if_false]
      cases storedField path record first with
      | error error => rfl
      | ok field => cases followSegments path field rest <;> rfl

theorem resolve_ok_iff (record : ρ) {path : String} (dotted : isDottedPath path = true) {resolved : Resolved ρ} :
    resolve (some record) path = .ok resolved ↔
      descend path record (pathSegments path) = .ok (resolved.path.segments, resolved.field) := by
  rw [resolve_dotted record dotted]
  constructor
  · intro accepted
    obtain ⟨found, followed, quoted⟩ := ok_of_bind accepted
    obtain ⟨columnPath, columns, same⟩ := ok_of_bind quoted
    cases same
    rw [followed, FieldPath.ofSegments_ok_iff.mp columns]
  · intro followed
    rw [followed]
    change FieldPath.ofSegments resolved.path.segments >>= _ = _
    rw [FieldPath.ofSegments_ok_iff.mpr rfl]
    rfl

/-- The rejections of a name that a record does not show or store. -/
inductive Lost : CompileError → Prop where
  | unknown {field record : String} : Lost (.unknownField field record)
  | unstored {field record path : String} : Lost (.noStorageMapping field record path)

theorem not_lost_of_ofSegments {segments : List String} {error : CompileError}
    (rejected : FieldPath.ofSegments segments = .error error) : ¬ Lost error := by
  intro lost
  unfold FieldPath.ofSegments at rejected
  split at rejected
  · cases rejected
    cases lost
  · split at rejected
    · cases rejected
      cases lost
    · cases rejected

theorem resolve_lost_iff (record : ρ) {path : String} (dotted : isDottedPath path = true) {error : CompileError}
    (lost : Lost error) :
    resolve (some record) path = .error error ↔ descend path record (pathSegments path) = .error error := by
  rw [resolve_dotted record dotted]
  cases descend path record (pathSegments path) with
  | error reason => simp [bind, Except.bind]
  | ok found =>
      simp only [bind, Except.bind]
      cases quoted : FieldPath.ofSegments found.1 with
      | error reason =>
          simp only [reduceCtorEq, iff_false, Except.error.injEq]
          rintro rfl
          exact not_lost_of_ofSegments quoted lost
      | ok columnPath => simp

/-! ## Paths one behind the other -/

section Continued

variable {record : ρ} {front back : String} (dotted : isDottedPath front = true) (dottedBack : isDottedPath back = true)
include dotted dottedBack

theorem resolve_append_ok_iff {resolved : Resolved ρ} :
    resolve (some record) (front ++ "." ++ back) = .ok resolved ↔
      ∃ first inner second, resolve (some record) front = .ok first ∧ first.field.nested = some inner ∧
        resolve (some inner) back = .ok second ∧ resolved = ⟨first.path ++ second.path, second.field⟩ := by
  obtain ⟨name, rest, segments⟩ := List.exists_cons_of_ne_nil (pathSegments_ne_nil back)
  rw [resolve_ok_iff record (isDottedPath_append dotted dottedBack), pathSegments_append, segments,
    descend_append _ record (pathSegments_ne_nil front)]
  constructor
  · intro followed
    obtain ⟨first, firstFollowed, continued⟩ := ok_of_bind followed
    obtain ⟨second, secondFollowed, joined⟩ := ok_of_bind continued
    obtain ⟨columns, final⟩ := Prod.mk.inj (Except.ok.inj joined)
    obtain ⟨inner, behind, descended⟩ := descendFrom_ok secondFollowed
    -- Each part of a column path is one: its columns can be quoted, and there is one for each name.
    have quotable : ∀ segment ∈ first.1 ++ second.1, Sql.isIdentifier segment = true :=
      columns ▸ resolved.path.identifiers
    obtain ⟨quotableFront, quotableBack⟩ := List.forall_mem_append.mp quotable
    have someFront : first.1 ≠ [] := by
      rw [← List.length_pos_iff, length_descend firstFollowed, List.length_pos_iff]
      exact pathSegments_ne_nil front
    have someBack : second.1 ≠ [] := by
      rw [← List.length_pos_iff, length_descend descended]
      exact Nat.succ_pos _
    refine ⟨⟨⟨first.1, someFront, quotableFront⟩, first.2⟩, inner, ⟨⟨second.1, someBack, quotableBack⟩, second.2⟩,
      ?_, behind, ?_, ?_⟩
    · exact (resolve_ok_iff record dotted).mpr (descend_ok_forPath front firstFollowed)
    · rw [resolve_ok_iff inner dottedBack, segments]
      exact descend_ok_forPath back descended
    · obtain ⟨path, field⟩ := resolved
      obtain rfl : second.2 = field := final
      congr 1
      exact FieldPath.eq_of_segments columns.symm
  · rintro ⟨first, inner, second, firstResolved, behind, secondResolved, rfl⟩
    rw [resolve_ok_iff record dotted] at firstResolved
    rw [resolve_ok_iff inner dottedBack, segments] at secondResolved
    rw [descend_ok_forPath (front ++ "." ++ back) firstResolved]
    simp only [bind, Except.bind, descendFrom_nested _ behind]
    rw [descend_ok_forPath (front ++ "." ++ back) secondResolved]
    rfl

theorem resolve_append_lost {error : CompileError} (lost : Lost error)
    (rejected : resolve (some record) front = .error error) :
    resolve (some record) (front ++ "." ++ back) = .error (error.forPath (front ++ "." ++ back)) := by
  obtain ⟨name, rest, segments⟩ := List.exists_cons_of_ne_nil (pathSegments_ne_nil back)
  have still : Lost (error.forPath (front ++ "." ++ back)) := by
    cases lost with
    | unknown => exact .unknown
    | unstored => exact .unstored
  rw [resolve_lost_iff record dotted lost] at rejected
  rw [resolve_lost_iff record (isDottedPath_append dotted dottedBack) still, pathSegments_append, segments,
    descend_append _ record (pathSegments_ne_nil front), descend_forPath front, rejected]
  rfl

end Continued

theorem length_segments {record : ρ} {path : String} {resolved : Resolved ρ} (dotted : isDottedPath path = true)
    (accepted : resolve (some record) path = .ok resolved) :
    resolved.path.segments.length = (pathSegments path).length :=
  length_descend ((resolve_ok_iff record dotted).mp accepted)

/-- How a path with another one behind it compares with the two. -/
structure Composes (record : ρ) (front back : String) : Prop where
  /-- It leads where the second path leads from the record behind the field of the first. -/
  ok_iff : ∀ resolved, resolve (some record) (front ++ "." ++ back) = .ok resolved ↔
    ∃ first inner second, resolve (some record) front = .ok first ∧ first.field.nested = some inner ∧
      resolve (some inner) back = .ok second ∧ resolved = ⟨first.path ++ second.path, second.field⟩
  /-- It has a column for each of its names. -/
  length : ∀ resolved, resolve (some record) (front ++ "." ++ back) = .ok resolved →
    resolved.path.segments.length = (pathSegments (front ++ "." ++ back)).length
  /-- The first path is accepted with it, and has the first of its columns. -/
  start : ∀ resolved, resolve (some record) (front ++ "." ++ back) = .ok resolved →
    ∃ first, resolve (some record) front = .ok first ∧ first.path.segments <+: resolved.path.segments
  unknownField : ∀ field holder, resolve (some record) front = .error (.unknownField field holder) →
    resolve (some record) (front ++ "." ++ back) = .error (.unknownField field holder)
  noStorageMapping : ∀ field holder path,
    resolve (some record) front = .error (.noStorageMapping field holder path) →
      resolve (some record) (front ++ "." ++ back) = .error (.noStorageMapping field holder (front ++ "." ++ back))

/-- Paths are resolved one step after the other: nothing that is behind a path has a say in where the path itself leads,
and where the rest leads depends on the record that the path ends in alone. -/
theorem resolve_append (record : ρ) {front back : String} (dotted : isDottedPath front = true)
    (dottedBack : isDottedPath back = true) : Composes record front back where
  ok_iff _ := resolve_append_ok_iff dotted dottedBack
  length _ accepted := length_segments (isDottedPath_append dotted dottedBack) accepted
  start _ accepted := by
    obtain ⟨first, _, second, firstResolved, _, _, rfl⟩ := (resolve_append_ok_iff dotted dottedBack).mp accepted
    refine ⟨first, firstResolved, ?_⟩
    rw [FieldPath.segments_append]
    exact List.prefix_append _ _
  unknownField _ _ rejected := resolve_append_lost dotted dottedBack .unknown rejected
  noStorageMapping _ _ _ rejected := resolve_append_lost dotted dottedBack .unstored rejected

/-- Persons with addresses, a note on which is shown and not stored. -/
def person : Schema :=
  .mk "Person" [.record "home" "home" false (.mk "Address" [
    .record "place" "place" false (.mk "Place" [.scalar "city" "city_name" .text false false]),
    .record "note" "" false (.mk "Note" [.scalar "text" "text" .text false false])])]

theorem resolve_append_person :
    (isDottedPath "home.place" = true ∧ isDottedPath "city" = true) ∧ Composes person "home.place" "city" ∧
      (∃ resolved, resolve (some person) "home.place.city" = .ok resolved ∧
        resolved.path.segments = ["home", "place", "city_name"]) ∧
      resolve (some person) "home.note.text" = .error (.noStorageMapping "note" "Address" "home.note.text") := by
  have composed : Composes person "home.place" "city" := resolve_append person (by decide +kernel) (by decide +kernel)
  have unstored : Composes person "home.note" "text" := resolve_append person (by decide +kernel) (by decide +kernel)
  refine ⟨by decide +kernel, composed, ?_, unstored.noStorageMapping "note" "Address" "home.note" rfl⟩
  exact ⟨_, (composed.ok_iff _).mpr ⟨_, _, _, rfl, rfl, rfl, rfl⟩, rfl⟩

end Schema

end FilterSql
