import FilterSql.Schema.Resolve

/-!
# Why a path is not resolved

A path is rejected for its form, for want of a record type, for a name that the record does not show or store, or for a
column that cannot be quoted. Nothing else can be wrong with it.
-/

set_option autoImplicit false

namespace FilterSql.Schema

open Sql (FieldPath)

inductive Unresolved : CompileError → Prop where
  | form {path : String} : Unresolved (.invalidPath path)
  | schema {path : String} : Unresolved (.noSchemaProvided path)
  | name {field record : String} : Unresolved (.unknownField field record)
  | column {field record path : String} : Unresolved (.noStorageMapping field record path)
  | identifier {name : String} : Unresolved (.invalidIdentifier name)

/-- If the result is a rejection, it is one of a path. -/
def Resolving {α : Type} (result : Except CompileError α) : Prop :=
  ∀ error, result = .error error → Unresolved error

theorem resolving_ok {α : Type} (value : α) : Resolving (.ok value : Except CompileError α) := by
  intro error rejected
  cases rejected

theorem resolving_error {α : Type} {error : CompileError} (unresolved : Unresolved error) :
    Resolving (.error error : Except CompileError α) := by
  intro _ rejected
  cases rejected
  exact unresolved

theorem Resolving.bind {α β : Type} {first : Except CompileError α} {next : α → Except CompileError β}
    (start : Resolving first) (rest : ∀ value, Resolving (next value)) : Resolving (first >>= next) := by
  cases first with
  | error error => exact resolving_error (start error rfl)
  | ok value => exact rest value

variable {ρ : Type} [RecordType ρ]

theorem storedField_resolving (path : String) (record : ρ) (name : String) :
    Resolving (storedField path record name) := by
  unfold storedField
  split
  · exact resolving_error .name
  · split
    · exact resolving_error .column
    · exact resolving_ok _

theorem followSegments_resolving (path : String) (field : Field ρ) (names : List String) :
    Resolving (followSegments path field names) := by
  induction names generalizing field with
  | nil => exact resolving_ok _
  | cons name rest ih =>
      unfold followSegments
      split
      · exact resolving_error .name
      · exact (storedField_resolving path _ name).bind fun next => (ih next).bind fun _ => resolving_ok _

theorem ofSegments_resolving (segments : List String) : Resolving (FieldPath.ofSegments segments) := by
  unfold FieldPath.ofSegments
  split
  · exact resolving_error .form
  · split
    · exact resolving_error .identifier
    · exact resolving_ok _

theorem resolve_resolving (schema : Option ρ) (path : String) : Resolving (resolve schema path) := by
  unfold resolve
  split
  · exact resolving_error .form
  · split
    · exact resolving_error .schema
    · exact resolving_error .form
    · exact (storedField_resolving path _ _).bind fun field => (followSegments_resolving path field _).bind fun _ =>
        (ofSegments_resolving _).bind fun _ => resolving_ok _

end FilterSql.Schema
