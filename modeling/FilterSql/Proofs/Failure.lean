import Mathlib.Data.List.Forall2

/-!
# Steps that may fail

What is done in steps succeeds if all of them do. Where a step is taken for the elements of a list one after the other,
the results are those of the elements alone, and the failure is that of the first element that fails alone.
-/

set_option autoImplicit false

namespace FilterSql

theorem ok_of_bind {ε α β : Type} {first : Except ε α} {next : α → Except ε β} {result : β}
    (accepted : first >>= next = .ok result) : ∃ value, first = .ok value ∧ next value = .ok result := by
  cases first with
  | error error => cases accepted
  | ok value => exact ⟨value, rfl, accepted⟩

theorem error_of_bind {ε α β : Type} {first : Except ε α} {next : α → Except ε β} {error : ε}
    (rejected : first >>= next = .error error) :
    first = .error error ∨ ∃ value, first = .ok value ∧ next value = .error error := by
  cases first with
  | error reason =>
      cases rejected
      exact .inl rfl
  | ok value => exact .inr ⟨value, rfl, rejected⟩

theorem ok_of_map {ε α β : Type} {source : Except ε α} {f : α → β} {result : β} (accepted : source.map f = .ok result) :
    ∃ value, source = .ok value ∧ f value = result := by
  cases source with
  | error error => cases accepted
  | ok value => exact ⟨value, rfl, Except.ok.inj accepted⟩

theorem error_of_map {ε α β : Type} {source : Except ε α} {f : α → β} {error : ε}
    (rejected : source.map f = .error error) : source = .error error := by
  cases source with
  | error reason => exact congrArg Except.error (Except.error.inj rejected)
  | ok value => cases rejected

/-! ## Steps that change a state -/

section State

variable {σ ε α β : Type} {first : EStateM ε σ α} {next : α → EStateM ε σ β} {state reached : σ}

theorem run_bind_ok {value : α} (done : first state = .ok value reached) :
    (first >>= next) state = next value reached := by
  change EStateM.bind first next state = _
  simp [EStateM.bind, done]

/-- What a step leaves behind that fails is what all steps leave behind. -/
theorem run_bind_error {error : ε} (failed : first state = .error error reached) :
    (first >>= next) state = .error error reached := by
  change EStateM.bind first next state = _
  simp [EStateM.bind, failed]

end State

/-! ## One step for each element -/

variable {α β ε : Type} {step : α → Except ε β}

theorem mapM_cons_ok {item : α} {value : β} (given : step item = .ok value) (rest : List α) :
    (item :: rest).mapM step = (rest.mapM step).map (value :: ·) := by
  rw [List.mapM_cons, given]
  cases rest.mapM step <;> rfl

theorem mapM_cons_error {item : α} {error : ε} (failed : step item = .error error) (rest : List α) :
    (item :: rest).mapM step = .error error := by
  rw [List.mapM_cons, failed]
  rfl

theorem mapM_ok_iff {items : List α} {values : List β} :
    items.mapM step = .ok values ↔ List.Forall₂ (fun item value => step item = .ok value) items values := by
  induction items generalizing values with
  | nil =>
      constructor
      · intro done
        cases done
        exact .nil
      · intro none
        cases none
        rfl
  | cons item rest ih =>
      cases given : step item with
      | error error => simp [mapM_cons_error given, List.forall₂_cons_left_iff, given]
      | ok value =>
          rw [mapM_cons_ok given, List.forall₂_cons_left_iff]
          constructor
          · intro done
            obtain ⟨found, others, same⟩ := ok_of_map done
            exact ⟨value, found, given, ih.mp others, same.symm⟩
          · rintro ⟨same, found, givenAgain, others, rfl⟩
            obtain rfl : value = same := Except.ok.inj (given.symm.trans givenAgain)
            rw [ih.mpr others]
            rfl

/-- The traversal succeeds if every element does. -/
theorem mapM_accepts_iff {items : List α} :
    (∃ values, items.mapM step = .ok values) ↔ ∀ item ∈ items, ∃ value, step item = .ok value := by
  induction items with
  | nil => exact ⟨fun _ => List.forall_mem_nil _, fun _ => ⟨[], rfl⟩⟩
  | cons item rest ih =>
      rw [List.forall_mem_cons, ← ih]
      cases given : step item with
      | error error => simp [mapM_cons_error given]
      | ok value =>
          rw [mapM_cons_ok given]
          cases rest.mapM step <;> simp [Except.map]

/-- The traversal fails as the first element does that fails alone. -/
theorem mapM_error_iff {items : List α} {error : ε} :
    items.mapM step = .error error ↔
      ∃ front item back, items = front ++ item :: back ∧ (∀ earlier ∈ front, ∃ value, step earlier = .ok value) ∧
        step item = .error error := by
  induction items with
  | nil =>
      constructor
      · intro failed
        cases failed
      · rintro ⟨front, item, back, split, -⟩
        simp at split
  | cons item rest ih =>
      cases given : step item with
      | error reason =>
          rw [mapM_cons_error given]
          constructor
          · intro same
            cases same
            exact ⟨[], item, rest, rfl, List.forall_mem_nil _, given⟩
          · rintro ⟨front, first, back, split, passed, failed⟩
            cases front with
            | nil =>
                cases split
                obtain rfl : reason = error := Except.error.inj (given.symm.trans failed)
                rfl
            | cons head front =>
                cases split
                obtain ⟨value, accepted⟩ := passed item (.head _)
                cases given.symm.trans accepted
      | ok value =>
          have later : (item :: rest).mapM step = .error error ↔ rest.mapM step = .error error := by
            rw [mapM_cons_ok given]
            cases rest.mapM step <;> simp [Except.map]
          rw [later, ih]
          constructor
          · rintro ⟨front, first, back, rfl, passed, failed⟩
            exact ⟨item :: front, first, back, rfl, List.forall_mem_cons.mpr ⟨⟨value, given⟩, passed⟩, failed⟩
          · rintro ⟨front, first, back, split, passed, failed⟩
            cases front with
            | nil =>
                cases split
                cases given.symm.trans failed
            | cons head front =>
                cases split
                exact ⟨front, first, back, rfl, (List.forall_mem_cons.mp passed).2, failed⟩

end FilterSql
