import FilterSql.Proofs.Json.Strings
import FilterSql.Proofs.Ordering.Parsing
import FilterSql.Schema.Loaded

/-!
# Changing orderings

A host may replace orderings by directives, add to them, put a fallback in their place and change the limit, in any
order and any number of times, going on with whatever a change leaves that fails. As parsing replaces all orderings or
none, the outcome is that of the changes that did not fail.
-/

set_option autoImplicit false

namespace FilterSql

open Schema (RecordType)

namespace Orders

/-! ## Changes -/

/-- What a host may do to orderings. -/
inductive Change where
  | parse (directives : List String)
  | parseJson (text : String)
  | push (order : Order)
  | orElse (fallback : List Order)
  | withLimits (limits : Limits)

variable {ρ : Type} [RecordType ρ]

namespace Change

def apply : Change → Parsing ρ Unit
  | parse directives => replace directives
  | parseJson text => replaceJson text
  | push order => modify (·.push order)
  | orElse fallback => modify (·.orElse fallback)
  | withLimits limits => modify (·.withLimits limits)

/-- The orderings that the change leaves behind, whether it fails or not. -/
def perform (orders : Orders ρ) (change : Change) : Orders ρ :=
  match change.apply orders with
  | .ok _ changed => changed
  | .error _ left => left

/-- The limit that the change puts in force. -/
def limit? : Change → Option Nat
  | withLimits limits => some limits.maxOrderings
  | _ => none

/-- The change asks for the directives to be parsed. In a JSON text they are the strings of a list. -/
inductive Asks : Change → List String → Prop where
  | parse (directives : List String) : Asks (.parse directives) directives
  | parseJson {text : String} {directives : List String} :
      Json.parse text = .ok (.array (directives.map .string)) → Asks (.parseJson text) directives

end Change

def performAll (orders : Orders ρ) (changes : List Change) : Orders ρ :=
  changes.foldl Change.perform orders

/-- The changes that succeed when each is tried after those before it. -/
def successes (orders : Orders ρ) : List Change → List Change
  | [] => []
  | change :: rest =>
    match change.apply orders with
    | .ok _ changed => change :: successes changed rest
    | .error _ left => successes left rest

/-- The limit in force after the changes, which is the last that one of them puts in force. -/
def limitAfter (limit : Nat) (changes : List Change) : Nat :=
  (changes.filterMap Change.limit?).getLastD limit

/-! ## What a change leaves -/

variable {orders changed left : Orders ρ} {directives : List String} {error : CompileError}

namespace Change

theorem Asks.apply_eq {change : Change} (asks : change.Asks directives) (orders : Orders ρ) :
    change.apply orders = replace directives orders := by
  cases asks with
  | parse => rfl
  | parseJson listed => exact replaceJson_ok (Json.readDirectives_ok_iff.mpr listed)

theorem apply_parseJson_error {text : String} (unlisted : ∀ directives, ¬ (parseJson text).Asks directives)
    (orders : Orders ρ) : ∃ fault, (parseJson text).apply orders = .error (.notJson fault) orders := by
  cases read : Json.readAll readDirectives text with
  | ok directives => exact absurd (.parseJson (Json.readDirectives_ok_iff.mp read)) (unlisted directives)
  | error fault => exact ⟨fault, replaceJson_error read⟩

/-- The schema never changes, and the limit only where a limit is put in force. -/
theorem apply_keeps {change : Change} (accepted : change.apply orders = .ok () changed) :
    changed.schema = orders.schema ∧ changed.maxOrderings = change.limit?.getD orders.maxOrderings := by
  cases change with
  | parse directives =>
      obtain ⟨_, items, _, rfl⟩ := replace_ok_iff.mp accepted
      exact ⟨rfl, rfl⟩
  | parseJson text =>
      cases read : Json.readAll readDirectives text with
      | ok directives =>
          obtain ⟨_, items, _, rfl⟩ := replace_ok_iff.mp ((replaceJson_ok read).symm.trans accepted)
          exact ⟨rfl, rfl⟩
      | error fault => cases (replaceJson_error read).symm.trans accepted
  | push order =>
      cases accepted
      exact ⟨rfl, rfl⟩
  | orElse fallback =>
      cases accepted
      change (orders.orElse fallback).schema = _ ∧ (orders.orElse fallback).maxOrderings = _
      unfold Orders.orElse
      split <;> exact ⟨rfl, rfl⟩
  | withLimits limits =>
      cases accepted
      exact ⟨rfl, rfl⟩

/-- A change that fails leaves the items, the schema and the limit. Only a change that cannot fail puts a limit in
force. -/
theorem left_of_apply_error {change : Change} (failed : change.apply orders = .error error left) :
    left = orders ∧ change.limit? = none := by
  cases change with
  | parse directives => exact ⟨left_of_replace_error failed, rfl⟩
  | parseJson text =>
      cases read : Json.readAll readDirectives text with
      | ok directives => exact ⟨left_of_replace_error ((replaceJson_ok read).symm.trans failed), rfl⟩
      | error fault =>
          cases (replaceJson_error read).symm.trans failed
          exact ⟨rfl, rfl⟩
  | push | orElse | withLimits => cases failed

theorem perform_ok {change : Change} (accepted : change.apply orders = .ok () changed) :
    change.perform orders = changed := by
  simp only [perform, accepted]

theorem perform_error {change : Change} (failed : change.apply orders = .error error left) :
    change.perform orders = orders := by
  simp only [perform, failed]
  exact (left_of_apply_error failed).1

theorem perform_keeps (orders : Orders ρ) (change : Change) :
    (change.perform orders).schema = orders.schema ∧
      (change.perform orders).maxOrderings = change.limit?.getD orders.maxOrderings := by
  cases outcome : change.apply orders with
  | ok _ changed =>
      rw [perform_ok outcome]
      exact apply_keeps outcome
  | error error left =>
      rw [perform_error outcome, (left_of_apply_error outcome).2]
      exact ⟨rfl, rfl⟩

end Change

theorem limitAfter_cons (limit : Nat) (change : Change) (rest : List Change) :
    limitAfter limit (change :: rest) = limitAfter (change.limit?.getD limit) rest := by
  unfold limitAfter
  cases imposed : change.limit? with
  | none => rw [List.filterMap_cons_none imposed, Option.getD_none]
  | some other => rw [List.filterMap_cons_some imposed, List.getLastD_cons, Option.getD_some]

theorem performAll_keeps (orders : Orders ρ) (changes : List Change) :
    (performAll orders changes).schema = orders.schema ∧
      (performAll orders changes).maxOrderings = limitAfter orders.maxOrderings changes := by
  unfold performAll
  induction changes generalizing orders with
  | nil => exact ⟨rfl, rfl⟩
  | cons change rest ih =>
      obtain ⟨sameSchema, limit⟩ := change.perform_keeps orders
      obtain ⟨schema, limitLater⟩ := ih (change.perform orders)
      rw [List.foldl_cons, limitAfter_cons, ← limit]
      exact ⟨schema.trans sameSchema, limitLater⟩

theorem successes_ok {change : Change} (accepted : change.apply orders = .ok () changed) (rest : List Change) :
    successes orders (change :: rest) = change :: successes changed rest := by
  simp only [successes, accepted]

theorem successes_error {change : Change} (failed : change.apply orders = .error error left) (rest : List Change) :
    successes orders (change :: rest) = successes orders rest := by
  simp only [successes, failed]
  rw [(Change.left_of_apply_error failed).1]

theorem successes_sublist (orders : Orders ρ) (changes : List Change) : (successes orders changes).Sublist changes := by
  induction changes generalizing orders with
  | nil => exact .slnil
  | cons change rest ih =>
      cases outcome : change.apply orders with
      | ok _ changed =>
          rw [successes_ok outcome]
          exact (ih changed).cons_cons change
      | error error left =>
          rw [successes_error outcome]
          exact (ih orders).cons change

/-- Where only the successful changes are tried, none fails, and the outcome is the same. -/
theorem forM_successes (orders : Orders ρ) (changes : List Change) :
    (successes orders changes).forM Change.apply orders = .ok () (performAll orders changes) := by
  unfold performAll
  induction changes generalizing orders with
  | nil => rfl
  | cons change rest ih =>
      rw [List.foldl_cons]
      cases outcome : change.apply orders with
      | ok _ changed =>
          rw [successes_ok outcome, Change.perform_ok outcome]
          exact (run_bind_ok outcome).trans (ih changed)
      | error error left =>
          rw [successes_error outcome, Change.perform_error outcome]
          exact ih orders

theorem performAll_successes (orders : Orders ρ) (changes : List Change) :
    performAll orders (successes orders changes) = performAll orders changes := by
  unfold performAll
  induction changes generalizing orders with
  | nil => rfl
  | cons change rest ih =>
      cases outcome : change.apply orders with
      | ok _ changed =>
          rw [successes_ok outcome, List.foldl_cons, List.foldl_cons, Change.perform_ok outcome]
          exact ih changed
      | error error left =>
          rw [successes_error outcome, List.foldl_cons, Change.perform_error outcome]
          exact ih orders

/-! ## All or nothing -/

/-- What a change comes to that is tried after others. -/
structure Tried (start : Orders ρ) (before : List Change) (change : Change) : Prop where
  /-- What a change leaves behind that fails is what it was tried on, items, schema and limit. -/
  unchanged : ∀ error left, change.apply (performAll start before) = .error error left →
    left = performAll start before ∧ performAll start (before ++ [change]) = performAll start before
  /-- Every directive is replaced by the order that it stands for alone, and nothing else is left or put in. -/
  replaced : ∀ directives, change.Asks directives → ∀ changed, change.apply (performAll start before) = .ok () changed →
    performAll start (before ++ [change]) = changed ∧
      changed.items.length = directives.length ∧ directives.length ≤ limitAfter start.maxOrderings before ∧
      List.Forall₂ (fun directive order => Order.parse start.schema directive = .ok order) directives changed.items ∧
      changed.schema = start.schema ∧ changed.maxOrderings = limitAfter start.maxOrderings before
  tooMany : ∀ directives, change.Asks directives → limitAfter start.maxOrderings before < directives.length →
    change.apply (performAll start before) =
      .error (.tooManyOrderings directives.length (limitAfter start.maxOrderings before)) (performAll start before)
  /-- The first directive that fails alone decides. -/
  rejected_iff : ∀ directives, change.Asks directives → directives.length ≤ limitAfter start.maxOrderings before →
    ∀ error, change.apply (performAll start before) = .error error (performAll start before) ↔
      ∃ front directive back, directives = front ++ directive :: back ∧
        (∀ earlier ∈ front, ∃ order, Order.parse start.schema earlier = .ok order) ∧
          Order.parse start.schema directive = .error error
  unlisted : ∀ text, change = .parseJson text → (∀ directives, ¬ change.Asks directives) →
    ∃ fault, change.apply (performAll start before) = .error (.notJson fault) (performAll start before)

theorem performAll_snoc (start : Orders ρ) (before : List Change) (change : Change) :
    performAll start (before ++ [change]) = change.perform (performAll start before) := by
  simp only [performAll, List.foldl_append, List.foldl_cons, List.foldl_nil]

theorem tried (start : Orders ρ) (before : List Change) (change : Change) : Tried start before change where
  unchanged error left failed := by
    rw [performAll_snoc]
    exact ⟨(Change.left_of_apply_error failed).1, Change.perform_error failed⟩
  replaced directives asks changed accepted := by
    obtain ⟨schema, limit⟩ := performAll_keeps start before
    rw [performAll_snoc, Change.perform_ok accepted, ← schema, ← limit]
    rw [asks.apply_eq] at accepted
    obtain ⟨within, items, parsed, rfl⟩ := replace_ok_iff.mp accepted
    exact ⟨rfl, parsed.length_eq.symm, within, parsed, rfl, rfl⟩
  tooMany directives asks beyond := by
    obtain ⟨_, limit⟩ := performAll_keeps start before
    rw [← limit] at beyond ⊢
    rw [asks.apply_eq, replace_beyond beyond]
  rejected_iff directives asks within error := by
    obtain ⟨schema, limit⟩ := performAll_keeps start before
    rw [← limit] at within
    rw [asks.apply_eq, replace_error_iff within, schema]
  unlisted text same none := by
    subst same
    exact Change.apply_parseJson_error none _

/-- Changes that fail may as well be left out, and parsing puts in place all that was asked for or nothing. -/
theorem performAll_allOrNothing (start : Orders ρ) (changes : List Change) :
    (successes start changes).Sublist changes ∧
      (successes start changes).forM Change.apply start = .ok () (performAll start changes) ∧
      performAll start (successes start changes) = performAll start changes ∧
      ∀ before change, Tried start before change :=
  ⟨successes_sublist start changes, forM_successes start changes, performAll_successes start changes, tried start⟩

/-- The second parsing fails at its last directive, and the third for the limit that was put in force before it. -/
example :
    (performAll (empty (some (.mk "Row" [.scalar "id" "key" .integer false false] : Schema)))
      [.parse ["id asc"], .parse ["id desc", "no desc"], .withLimits ⟨1, 1, 1⟩, .parseJson "[\"id asc\", \"id desc\"]",
        .orElse []]).text = "order by \"key\" asc" := by
  decide +kernel

end Orders

end FilterSql
