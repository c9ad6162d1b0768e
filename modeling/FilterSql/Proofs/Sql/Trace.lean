import FilterSql.Proofs.Sql.Fragment
import FilterSql.Proofs.Sql.Scan

/-!
# Where arguments were bound

A builder does not remember which placeholder it wrote for which argument. A traced builder does: it is written to as a
builder is, and writes down beside it where each argument was bound. The builder in it does not notice.
-/

set_option autoImplicit false

namespace FilterSql.Sql

/-- An argument with the placeholder that was written when it was bound, and the place of that placeholder. -/
structure Binding where
  place : Nat
  placeholder : String
  value : Value

/-- The binding in a text that so many characters are put in front of. -/
def Binding.moved (count : Nat) (binding : Binding) : Binding :=
  { binding with place := count + binding.place }

/-- A builder with the bindings of its arguments. -/
structure Traced where
  builder : Builder
  bindings : List Binding

def Traced.empty (backend : Backend) : Traced :=
  ⟨.empty backend, []⟩

instance : Page Traced where
  appendLiteral traced fragment := { traced with builder := traced.builder.appendLiteral fragment }
  appendArgument traced value :=
    let placeholder := traced.builder.backend.placeholder (traced.builder.lastOrdinal + 1)
    { builder := traced.builder.appendArgument value
      bindings := traced.bindings ++ [⟨placeOf traced.builder.text placeholder, placeholder, value⟩] }
  lastOrdinal traced := traced.builder.lastOrdinal
  scratch traced := ⟨traced.builder.scratch, []⟩
  -- What was bound apart is from now on where the page is put.
  takeOver traced page :=
    { builder := traced.builder.takeOver page.builder
      bindings := traced.bindings ++
        page.bindings.map (Binding.moved (placeOf traced.builder.text page.builder.text)) }

/-- The bindings of a fragment behind `bound` arguments. -/
def Fragment.bindings (backend : Backend) (bound : Nat) : Fragment → List Binding
  | [] => []
  | .literal fragment :: rest =>
    (bindings backend bound rest).map (Binding.moved (placeOf fragment (text backend bound rest)))
  | .argument value :: rest =>
    ⟨0, backend.placeholder (bound + 1), value⟩ ::
      (bindings backend (bound + 1) rest).map
        (Binding.moved (placeOf (backend.placeholder (bound + 1)) (text backend (bound + 1) rest)))

/-! ## Places in joined texts -/

private theorem placeholder_ne_empty (backend : Backend) (ordinal : Nat) : backend.placeholder ordinal ≠ "" := by
  intro empty
  have letters := backend.placeholder_toList ordinal
  simp [empty] at letters

@[simp] theorem placeOf_empty_left (text : String) : placeOf "" text = 0 := by
  simp [placeOf]

theorem placeOf_join_left (first second third : String) :
    placeOf (join first second) third = placeOf first (join second third) + placeOf second third := by
  have left := length_join (join first second) third
  have right := length_join first (join second third)
  have inner := length_join second third
  rw [join_assoc] at left
  omega

/-- The place of a text does not depend on what is joined to it. -/
theorem placeOf_join_right (first third : String) {second : String} (nonempty : second ≠ "") :
    placeOf first (join second third) = placeOf first second := by
  simp only [placeOf, needsSpace_eq, front?_join third nonempty]

private theorem moved_moved (outer inner : Nat) (bindings : List Binding) :
    (bindings.map (Binding.moved inner)).map (Binding.moved outer) = bindings.map (Binding.moved (outer + inner)) := by
  simp [Binding.moved, Nat.add_assoc]

@[simp] theorem map_moved_zero (bindings : List Binding) : bindings.map (Binding.moved 0) = bindings := by
  have still : Binding.moved 0 = id := by
    funext binding
    simp [Binding.moved]
  rw [still, List.map_id]

/-! ## What a fragment adds to a trace -/

namespace Traced

theorem appendFragment_eq (traced : Traced) (fragment : Fragment) :
    Page.appendFragment traced fragment =
      { builder := Page.appendFragment traced.builder fragment
        bindings := traced.bindings ++
          (Fragment.bindings traced.builder.backend traced.builder.lastOrdinal fragment).map
            (Binding.moved
              (placeOf traced.builder.text
                (Fragment.text traced.builder.backend traced.builder.lastOrdinal fragment))) } := by
  induction fragment generalizing traced with
  | nil => simp [Fragment.bindings]
  | cons piece rest ih =>
      obtain ⟨builder, bindings⟩ := traced
      -- What is behind the piece is moved once by the piece and once by the text before it.
      refine (ih (Page.appendPiece ⟨builder, bindings⟩ piece)).trans ?_
      cases piece with
      | literal fragment =>
          have ordinal : (builder.appendLiteral fragment).lastOrdinal = builder.lastOrdinal := rfl
          have place := placeOf_join_left builder.text fragment (Fragment.text builder.backend builder.lastOrdinal rest)
          simp only [Page.appendPiece, Page.appendLiteral, ordinal, Fragment.bindings, Fragment.text, moved_moved,
            ← place]
          rfl
      | argument value =>
          have ordinal : (builder.appendArgument value).lastOrdinal = builder.lastOrdinal + 1 := by
            simp [Builder.appendArgument, Builder.lastOrdinal, Nat.add_assoc]
          have place := placeOf_join_left builder.text (builder.backend.placeholder (builder.lastOrdinal + 1))
            (Fragment.text builder.backend (builder.lastOrdinal + 1) rest)
          have same := placeOf_join_right builder.text (Fragment.text builder.backend (builder.lastOrdinal + 1) rest)
            (placeholder_ne_empty builder.backend (builder.lastOrdinal + 1))
          simp only [Page.appendPiece, Page.appendArgument, ordinal, Fragment.bindings, Fragment.text, List.map_cons,
            moved_moved, ← place, List.append_assoc, List.singleton_append]
          simp only [Binding.moved, same, Nat.add_zero]
          rfl

/-- The builder does not notice that its bindings are written down. -/
@[simp] theorem builder_appendFragment (traced : Traced) (fragment : Fragment) :
    (Page.appendFragment traced fragment).builder = Page.appendFragment traced.builder fragment := by
  rw [appendFragment_eq]

/-- What is written apart is in the end bound where it is bound when it is written at once. -/
instance : LawfulPage Traced where
  takeOver_scratch traced fragment := by
    have apart : Page.appendFragment (Page.scratch traced) fragment =
        { builder := Page.appendFragment (Page.scratch traced.builder) fragment
          bindings := fragment.bindings traced.builder.backend traced.builder.lastOrdinal } := by
      rw [appendFragment_eq]
      simp [Page.scratch, Builder.scratch, Builder.lastOrdinal]
    have text : (Page.appendFragment (Page.scratch traced.builder) fragment).text =
        fragment.text traced.builder.backend traced.builder.lastOrdinal := by
      rw [Builder.appendFragment_eq]
      simp [Page.scratch, Builder.scratch, Builder.lastOrdinal]
    rw [apart, appendFragment_eq traced, ← text, ← LawfulPage.takeOver_scratch traced.builder]
    rfl

end Traced

/-! ## Bindings and placeholders -/

namespace Fragment

/-- Every literal closes its double quotes and has no placeholder outside of them. -/
def Inert (fragment : Fragment) : Prop :=
  ∀ text, .literal text ∈ fragment → Sql.Inert text

theorem bindings_value (fragment : Fragment) (backend : Backend) (bound : Nat) :
    (fragment.bindings backend bound).map (·.value) = fragment.arguments := by
  induction fragment generalizing bound with
  | nil => rfl
  | cons piece rest ih =>
      cases piece with
      | literal fragment => simpa [bindings, arguments, Binding.moved, Function.comp_def] using ih bound
      | argument value => simpa [bindings, arguments, Binding.moved, Function.comp_def] using ih (bound + 1)

theorem bindings_placeholder (fragment : Fragment) (backend : Backend) (bound : Nat) :
    (fragment.bindings backend bound).map (·.placeholder) =
      (List.range fragment.arguments.length).map fun index => backend.placeholder (bound + index + 1) := by
  induction fragment generalizing bound with
  | nil => rfl
  | cons piece rest ih =>
      cases piece with
      | literal fragment => simpa [bindings, arguments, Binding.moved, Function.comp_def] using ih bound
      | argument value =>
          have others := ih (bound + 1)
          simp only [bindings, arguments, List.map_cons, List.map_map, List.length_cons, List.range_succ_eq_map,
            Function.comp_def, Binding.moved, others, Nat.add_zero]
          simp only [Nat.succ_eq_add_one, Nat.add_assoc, Nat.add_comm 1]

/-- The placeholders in the text of a fragment are those that its arguments are bound to. -/
theorem placeholders_text {fragment : Fragment} (inert : fragment.Inert) (backend : Backend) (bound : Nat) :
    placeholders (fragment.text backend bound) =
      (fragment.bindings backend bound).map fun binding => (binding.place, binding.placeholder) := by
  induction fragment generalizing bound with
  | nil => rfl
  | cons piece rest ih =>
      have others := ih (fun text member => inert text (List.mem_cons_of_mem _ member))
      cases piece with
      | literal fragment =>
          have known := inert fragment (by simp)
          rw [text, placeholders_join known.closed, known.silent, others bound]
          simp [bindings, shifted, Binding.moved]
      | argument value =>
          rw [text, placeholders_join (closed_placeholder backend (bound + 1)), placeholders_placeholder,
            others (bound + 1)]
          simp [bindings, shifted, Binding.moved]

end Fragment

end FilterSql.Sql
