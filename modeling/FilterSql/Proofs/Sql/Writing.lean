import FilterSql.Proofs.Failure
import FilterSql.Proofs.Sql.Fragment

/-!
# What a writing adds

A writing that does not look at its page adds the same fragment to every page, or fails with the same error. What
it leaves behind when it fails depends on how far it came; only a subexpression leaves nothing.
-/

set_option autoImplicit false

namespace FilterSql.Sql.Writing

variable {π ε : Type} [Page π]

/-- The writing adds the fragment, or fails with the error, whatever the page. -/
def Adds (write : Writing π ε Unit) : Except ε Fragment → Prop
  | .ok fragment => ∀ page, write page = .ok () (Page.appendFragment page fragment)
  | .error error => ∀ page, ∃ written, write page = .error error written

theorem Adds.of_eq {write : Writing π ε Unit} {result other : Except ε Fragment} (adds : Adds write result)
    (same : result = other) : Adds write other :=
  same ▸ adds

theorem adds_nothing : Adds (pure () : Writing π ε Unit) (.ok []) :=
  fun _ => rfl

theorem adds_literal (fragment : String) : Adds (literal fragment : Writing π ε Unit) (.ok [.literal fragment]) :=
  fun _ => rfl

theorem adds_argument (value : Value) :
    Adds (do let _ ← argument value : Writing π ε Unit) (.ok [.argument value]) :=
  fun _ => rfl

theorem adds_throw (error : ε) : Adds (throw error : Writing π ε Unit) (.error error) :=
  fun page => ⟨page, rfl⟩

theorem Adds.andThen {first second : Writing π ε Unit} {before after : Except ε Fragment}
    (left : Adds first before) (right : Adds second after) :
    Adds (do first; second) (do let start ← before; let rest ← after; .ok (start ++ rest)) := by
  cases before with
  | error error =>
      intro page
      obtain ⟨written, failure⟩ := left page
      exact ⟨written, run_bind_error failure⟩
  | ok start =>
      cases after with
      | error error =>
          intro page
          obtain ⟨written, failure⟩ := right (Page.appendFragment page start)
          exact ⟨written, (run_bind_ok (left page)).trans failure⟩
      | ok rest =>
          intro page
          rw [Page.appendFragment_append]
          exact (run_bind_ok (left page)).trans (right _)

theorem Adds.ofExcept {α : Type} {source : Except ε α} {next : α → Writing π ε Unit} {result : α → Except ε Fragment}
    (adds : ∀ value, Adds (next value) (result value)) :
    Adds (do let value ← ofExcept source; next value) (source >>= result) := by
  cases source with
  | error error => exact fun page => ⟨page, rfl⟩
  | ok value => exact adds value

/-- A page between the writing and the one that takes it over does not show. -/
theorem Adds.subexpression [LawfulPage π] {write : Writing π ε Unit} {result : Except ε Fragment}
    (adds : Adds write result) :
    Adds (subexpression write) result := by
  cases result with
  | error error =>
      intro page
      obtain ⟨written, failure⟩ := adds (Page.scratch page)
      exact ⟨page, by simp [Writing.subexpression, failure]⟩
  | ok fragment =>
      intro page
      simp [Writing.subexpression, adds (Page.scratch page), LawfulPage.takeOver_scratch]

theorem subexpression_error {write : Writing π ε Unit} {page written : π} {error : ε}
    (failure : subexpression write page = .error error written) : written = page := by
  unfold subexpression at failure
  split at failure
  · cases failure
  · cases failure
    rfl

/-- Writing on a page of its own is the same with a builder at hand and within a writing. -/
theorem written_subexpression (write : Writing Builder ε Unit) (builder : Builder) :
    (subexpression write).written builder = builder.appendSubexpression write.written := by
  have page : Page.scratch builder = builder.scratch := rfl
  simp only [written, subexpression, Builder.appendSubexpression, page]
  cases write builder.scratch <;> rfl

end FilterSql.Sql.Writing
