import FilterSql.Proofs.Sql.Writing

/-!
# Grouping the steps of a statement

A script writes literals and binds arguments, and may go on by the ordinals that it is given. Some of its steps may
stand in groups that are written apart and taken over as one. What a script adds depends only on the ordinal it starts
from, so that it does not show which steps were grouped: neither in the text, nor in the arguments, nor in any ordinal.
-/

set_option autoImplicit false

namespace FilterSql.Sql

variable {ε α β : Type}

/-! ## Effects -/

/-- What a writing gives and adds, from the ordinal that it starts at. -/
def Effect (ε α : Type) : Type :=
  Nat → Except ε (α × Fragment)

namespace Effect

def literal (fragment : String) : Effect ε Unit := fun _ => .ok ((), [.literal fragment])

def argument (value : Value) : Effect ε Nat := fun bound => .ok (bound + 1, [.argument value])

def fail (error : ε) : Effect ε α := fun _ => .error error

def attempt (effect : Effect ε α) : Effect ε (Except ε α) := fun bound =>
  match effect bound with
  | .ok (value, fragment) => .ok (.ok value, fragment)
  | .error error => .ok (.error error, [])

instance : Monad (Effect ε) where
  pure value := fun _ => .ok (value, [])
  bind first next := fun bound =>
    match first bound with
    | .error error => .error error
    | .ok (value, start) =>
      (next value (bound + start.arguments.length)).map fun result => (result.1, start ++ result.2)

theorem pure_apply (value : α) (bound : Nat) : (pure value : Effect ε α) bound = .ok (value, []) :=
  rfl

theorem bind_error {first : Effect ε α} {next : α → Effect ε β} {bound : Nat} {error : ε}
    (failed : first bound = .error error) : (first >>= next) bound = .error error := by
  simp only [bind, failed]

theorem bind_ok {first : Effect ε α} {next : α → Effect ε β} {bound : Nat} {value : α} {start : Fragment}
    (given : first bound = .ok (value, start)) :
    (first >>= next) bound =
      (next value (bound + start.arguments.length)).map fun result => (result.1, start ++ result.2) := by
  simp only [bind, given]

instance : LawfulMonad (Effect ε) := LawfulMonad.mk' _
  (fun effect => by
    funext bound
    change (effect >>= fun value => pure (id value)) bound = effect bound
    cases given : effect bound with
    | error error => exact bind_error given
    | ok result => simp [bind_ok given, pure_apply, Except.map])
  (fun value next => by
    funext bound
    rw [bind_ok (pure_apply value bound)]
    cases given : next value bound <;> simp [Fragment.arguments, Except.map, given])
  (fun first second third => by
    funext bound
    cases given : first bound with
    | error error => rw [bind_error given, bind_error (bind_error given)]
    | ok start =>
        rw [bind_ok given]
        cases inner : second start.1 (bound + start.2.arguments.length) with
        | error error => rw [bind_error inner, bind_error (by rw [bind_ok given, inner, Except.map]), Except.map]
        | ok middle =>
            have both : (first >>= second) bound = .ok (middle.1, start.2 ++ middle.2) := by
              rw [bind_ok given, inner, Except.map]
            rw [bind_ok inner, bind_ok both, Fragment.arguments_append, List.length_append, Nat.add_assoc]
            cases third middle.1 (bound + (start.2.arguments.length + middle.2.arguments.length)) <;>
              simp [Except.map])

end Effect

/-! ## Writings with an effect -/

namespace Builder

theorem lastOrdinal_appendFragment (builder : Builder) (fragment : Fragment) :
    (Page.appendFragment builder fragment).lastOrdinal = builder.lastOrdinal + fragment.arguments.length := by
  simp [appendFragment_eq, lastOrdinal, Nat.add_assoc]

end Builder

namespace Writing

variable {π : Type} [Page π]

/-- A subexpression that hands out what its writing gives. -/
def apart (write : Writing π ε α) : Writing π ε α := fun page =>
  match write (Page.scratch page) with
  | .ok value inner => .ok value (Page.takeOver page inner)
  | .error error _ => .error error page

/-- A subexpression that may fail. The failure is handed out and nothing else comes of it. -/
def attempt (write : Writing π ε α) : Writing π ε (Except ε α) := fun page =>
  match apart write page with
  | .ok value written => .ok (.ok value) written
  | .error error written => .ok (.error error) written

theorem apart_ok {write : Writing π ε α} {page inner : π} {value : α}
    (given : write (Page.scratch page) = .ok value inner) :
    apart write page = .ok value (Page.takeOver page inner) := by
  simp only [apart, given]

theorem apart_error {write : Writing π ε α} {page inner : π} {error : ε}
    (failed : write (Page.scratch page) = .error error inner) : apart write page = .error error page := by
  simp only [apart, failed]

theorem apart_error_page {write : Writing π ε α} {page after : π} {error : ε}
    (failed : apart write page = .error error after) : after = page := by
  unfold apart at failed
  split at failed
  · cases failed
  · cases failed
    rfl

/-- A subexpression is what is written apart, less what the writing gives. -/
theorem subexpression_eq_apart (write : Writing π ε α) (page : π) :
    subexpression (do let _ ← write) page =
      match apart write page with
      | .ok _ after => .ok () after
      | .error error after => .error error after := by
  cases inside : write (Page.scratch page) with
  | error error inner =>
      have failed : (do let _ ← write : Writing π ε Unit) (Page.scratch page) = .error error inner :=
        run_bind_error inside
      simp only [subexpression, failed, apart_error inside]
  | ok result inner =>
      have forgotten : (do let _ ← write : Writing π ε Unit) (Page.scratch page) = .ok () inner := run_bind_ok inside
      simp only [subexpression, forgotten, apart_ok inside]

theorem subexpression_ok_iff {write : Writing π ε α} {page after : π} :
    subexpression (do let _ ← write) page = .ok () after ↔ ∃ value, apart write page = .ok value after := by
  rw [subexpression_eq_apart]
  cases apart write page <;> simp

theorem subexpression_error_iff {write : Writing π ε α} {page after : π} {error : ε} :
    subexpression (do let _ ← write) page = .error error after ↔ apart write page = .error error after := by
  rw [subexpression_eq_apart]
  cases apart write page <;> simp

/-- The writing gives and adds what the effect says, or fails as it says. -/
structure HasEffect (write : Writing Builder ε α) (effect : Effect ε α) : Prop where
  ok : ∀ {builder value fragment}, effect builder.lastOrdinal = .ok (value, fragment) →
    write builder = .ok value (Page.appendFragment builder fragment)
  error : ∀ {builder error}, effect builder.lastOrdinal = .error error → ∃ reached, write builder = .error error reached

theorem HasEffect.ok_iff {write : Writing Builder ε α} {effect : Effect ε α} (has : HasEffect write effect)
    {builder after : Builder} {value : α} :
    write builder = .ok value after ↔
      ∃ fragment, effect builder.lastOrdinal = .ok (value, fragment) ∧
        after = Page.appendFragment builder fragment := by
  constructor
  · intro given
    cases known : effect builder.lastOrdinal with
    | error error =>
        obtain ⟨reached, failed⟩ := has.error known
        rw [failed] at given
        cases given
    | ok outcome =>
        rw [has.ok known] at given
        cases given
        exact ⟨_, rfl, rfl⟩
  · rintro ⟨fragment, known, rfl⟩
    exact has.ok known

theorem HasEffect.error_iff {write : Writing Builder ε α} {effect : Effect ε α} (has : HasEffect write effect)
    {builder : Builder} {error : ε} :
    (∃ reached, write builder = .error error reached) ↔ effect builder.lastOrdinal = .error error := by
  constructor
  · rintro ⟨reached, failed⟩
    cases known : effect builder.lastOrdinal with
    | ok outcome =>
        rw [has.ok known] at failed
        cases failed
    | error reason =>
        obtain ⟨_, stopped⟩ := has.error known
        rw [stopped] at failed
        cases failed
        rfl
  · exact has.error

theorem hasEffect_pure (value : α) : HasEffect (pure value : Writing Builder ε α) (pure value) where
  ok given := by
    cases given
    rfl
  error failed := by cases failed

theorem hasEffect_throw (error : ε) : HasEffect (throw error : Writing Builder ε α) (Effect.fail error) where
  ok given := by cases given
  error failed := by
    cases failed
    exact ⟨_, rfl⟩

theorem hasEffect_literal (fragment : String) :
    HasEffect (literal fragment : Writing Builder ε Unit) (Effect.literal fragment) where
  ok given := by
    cases given
    rfl
  error failed := by cases failed

theorem hasEffect_argument (value : Value) :
    HasEffect (argument value : Writing Builder ε Nat) (Effect.argument value) where
  ok {builder _ _} given := by
    cases given
    have ordinal : (builder.appendArgument value).lastOrdinal = builder.lastOrdinal + 1 :=
      builder.lastOrdinal_appendFragment [.argument value]
    rw [← ordinal]
    rfl
  error failed := by cases failed

theorem HasEffect.bind {first : Writing Builder ε α} {next : α → Writing Builder ε β} {start : Effect ε α}
    {rest : α → Effect ε β} (left : HasEffect first start) (right : ∀ value, HasEffect (next value) (rest value)) :
    HasEffect (first >>= next) (start >>= rest) where
  ok {builder result fragment} given := by
    cases begun : start builder.lastOrdinal with
    | error error =>
        rw [Effect.bind_error begun] at given
        cases given
    | ok outcome =>
        obtain ⟨value, before⟩ := outcome
        rw [Effect.bind_ok begun, ← Builder.lastOrdinal_appendFragment] at given
        cases ended : rest value (Page.appendFragment builder before).lastOrdinal with
        | error error =>
            rw [ended] at given
            cases given
        | ok outcome =>
            rw [ended] at given
            cases given
            rw [Page.appendFragment_append]
            exact (run_bind_ok (left.ok begun)).trans ((right value).ok ended)
  error {builder error} failed := by
    cases begun : start builder.lastOrdinal with
    | error reason =>
        rw [Effect.bind_error begun] at failed
        cases failed
        obtain ⟨reached, stopped⟩ := left.error begun
        exact ⟨reached, run_bind_error stopped⟩
    | ok outcome =>
        obtain ⟨value, before⟩ := outcome
        rw [Effect.bind_ok begun, ← Builder.lastOrdinal_appendFragment] at failed
        cases ended : rest value (Page.appendFragment builder before).lastOrdinal with
        | ok outcome =>
            rw [ended] at failed
            cases failed
        | error reason =>
            rw [ended] at failed
            cases failed
            obtain ⟨reached, stopped⟩ := (right value).error ended
            exact ⟨reached, (run_bind_ok (left.ok begun)).trans stopped⟩

/-- A builder of its own for the writing makes no difference, but that nothing is left where it fails. -/
theorem HasEffect.apart {write : Writing Builder ε α} {effect : Effect ε α} (has : HasEffect write effect) :
    HasEffect write.apart effect where
  ok {builder value fragment} given := by
    have inside : effect builder.scratch.lastOrdinal = .ok (value, fragment) := given
    rw [apart_ok (has.ok inside)]
    exact congrArg _ (LawfulPage.takeOver_scratch builder fragment)
  error {builder error} failed := by
    have inside : effect builder.scratch.lastOrdinal = .error error := failed
    obtain ⟨reached, stopped⟩ := has.error inside
    exact ⟨builder, apart_error stopped⟩

theorem HasEffect.attempt {write : Writing Builder ε α} {effect : Effect ε α} (has : HasEffect write effect) :
    HasEffect write.attempt effect.attempt where
  ok {builder value fragment} given := by
    unfold Effect.attempt at given
    cases begun : effect builder.lastOrdinal with
    | ok outcome =>
        rw [begun] at given
        cases given
        simp only [Writing.attempt, has.apart.ok begun]
    | error reason =>
        rw [begun] at given
        cases given
        have inside : effect builder.scratch.lastOrdinal = .error reason := begun
        obtain ⟨reached, stopped⟩ := has.error inside
        simp only [Writing.attempt, apart_error stopped, Page.appendFragment_nil]
  error {builder error} failed := by
    unfold Effect.attempt at failed
    split at failed <;> cases failed

end Writing

/-! ## Scripts -/

/-- The steps of a statement. What follows an argument may depend on its ordinal, and what follows an attempt on whether
and why it failed. -/
inductive Script (ε : Type) where
  | done
  | fail (error : ε)
  | literal (fragment : String) (next : Script ε)
  | argument (value : Value) (next : Nat → Script ε)
  | group (inner next : Script ε)
  | attempt (inner : Script ε) (next : Option ε → Script ε)

namespace Script

def failure? {α : Type} : Except ε α → Option ε
  | .ok _ => none
  | .error error => some error

def ordinals : Except ε (List Nat) → List Nat
  | .ok given => given
  | .error _ => []

/-- Takes the steps. Gives the ordinals of all arguments that are bound. -/
def run : Script ε → Writing Builder ε (List Nat)
  | done => pure []
  | fail error => throw error
  | literal fragment next => do
    Writing.literal fragment
    next.run
  | argument value next => do
    let ordinal ← Writing.argument value
    let rest ← (next ordinal).run
    pure (ordinal :: rest)
  | group inner next => do
    let first ← inner.run.apart
    let rest ← next.run
    pure (first ++ rest)
  | attempt inner next => do
    let result ← inner.run.attempt
    let rest ← (next (failure? result)).run
    pure (ordinals result ++ rest)

def effect : Script ε → Effect ε (List Nat)
  | done => pure []
  | fail error => Effect.fail error
  | literal fragment next => do
    Effect.literal fragment
    next.effect
  | argument value next => do
    let ordinal ← Effect.argument value
    let rest ← (next ordinal).effect
    pure (ordinal :: rest)
  | group inner next => do
    let first ← inner.effect
    let rest ← next.effect
    pure (first ++ rest)
  | attempt inner next => do
    let result ← inner.effect.attempt
    let rest ← (next (failure? result)).effect
    pure (ordinals result ++ rest)

theorem run_hasEffect (script : Script ε) : script.run.HasEffect script.effect := by
  induction script with
  | done => exact Writing.hasEffect_pure []
  | fail error => exact Writing.hasEffect_throw error
  | literal fragment next ih => exact (Writing.hasEffect_literal fragment).bind fun _ => ih
  | argument value next ih =>
      exact (Writing.hasEffect_argument value).bind fun ordinal =>
        (ih ordinal).bind fun rest => Writing.hasEffect_pure (ordinal :: rest)
  | group inner next innerIH nextIH =>
      exact innerIH.apart.bind fun first => nextIH.bind fun rest => Writing.hasEffect_pure (first ++ rest)
  | attempt inner next innerIH nextIH =>
      exact innerIH.attempt.bind fun result =>
        (nextIH (failure? result)).bind fun rest => Writing.hasEffect_pure (ordinals result ++ rest)

/-! ## Scripts without groups -/

def andThen : Script ε → Script ε → Script ε
  | done, second => second
  | fail error, _ => fail error
  | literal fragment next, second => literal fragment (next.andThen second)
  | argument value next, second => argument value fun ordinal => (next ordinal).andThen second
  | group inner next, second => group inner (next.andThen second)
  | attempt inner next, second => attempt inner fun failure => (next failure).andThen second

/-- The same steps without any groups. Attempts stay, since only what is written apart can fail and leave nothing. -/
def inline : Script ε → Script ε
  | done => done
  | fail error => fail error
  | literal fragment next => literal fragment next.inline
  | argument value next => argument value fun ordinal => (next ordinal).inline
  | group inner next => inner.inline.andThen next.inline
  | attempt inner next => attempt inner.inline fun failure => (next failure).inline

theorem effect_andThen (first second : Script ε) :
    (first.andThen second).effect = (do
      let start ← first.effect
      let rest ← second.effect
      pure (start ++ rest)) := by
  induction first with
  | done => simp only [andThen, effect, pure_bind, List.nil_append, bind_pure]
  | fail error => rfl
  | literal fragment next ih => simp only [andThen, effect, ih, bind_assoc]
  | argument value next ih => simp only [andThen, effect, ih, bind_assoc, pure_bind, List.cons_append]
  | group inner next _ ih => simp only [andThen, effect, ih, bind_assoc, pure_bind, List.append_assoc]
  | attempt inner next _ ih => simp only [andThen, effect, ih, bind_assoc, pure_bind, List.append_assoc]

theorem effect_inline (script : Script ε) : script.inline.effect = script.effect := by
  induction script with
  | done => rfl
  | fail error => rfl
  | literal fragment next ih => simp [inline, effect, ih]
  | argument value next ih => simp [inline, effect, ih]
  | group inner next innerIH nextIH => rw [inline, effect_andThen, innerIH, nextIH, effect]
  | attempt inner next innerIH nextIH => simp [inline, effect, innerIH, nextIH]

/-! ## Groups do not show -/

/-- What becomes of a script on a builder, whether its steps are grouped or not. -/
structure Transparent (script : Script ε) (builder : Builder) : Prop where
  /-- Written apart, the script leaves the same builder and is given the same ordinals. -/
  apart : ∀ ordinals after, script.run.apart builder = .ok ordinals after ↔ script.run builder = .ok ordinals after
  subexpression : ∀ after, Writing.subexpression (do let _ ← script.run) builder = .ok () after ↔
    ∃ ordinals, script.run builder = .ok ordinals after
  inlined : ∀ ordinals after, script.inline.run builder = .ok ordinals after ↔ script.run builder = .ok ordinals after
  /-- Every script of the same steps, in other groups or in none, does the same. -/
  regrouped : ∀ other : Script ε, other.inline = script.inline → ∀ ordinals after,
    other.run builder = .ok ordinals after ↔ script.run builder = .ok ordinals after
  /-- A script that fails does so apart, and then leaves the builder as it was. -/
  failed : ∀ error after, script.run.apart builder = .error error after ↔
    after = builder ∧ ∃ reached, script.run builder = .error error reached
  subexpressionFailed : ∀ error after, Writing.subexpression (do let _ ← script.run) builder = .error error after ↔
    after = builder ∧ ∃ reached, script.run builder = .error error reached

theorem run_transparent (script : Script ε) (builder : Builder) : script.Transparent builder := by
  have has := script.run_hasEffect
  have apart : ∀ ordinals after,
      script.run.apart builder = .ok ordinals after ↔ script.run builder = .ok ordinals after := by
    intro ordinals after
    rw [has.apart.ok_iff, has.ok_iff]
  have failed : ∀ error after, script.run.apart builder = .error error after ↔
      after = builder ∧ ∃ reached, script.run builder = .error error reached := by
    intro error after
    constructor
    · intro failed
      exact ⟨Writing.apart_error_page failed, has.error_iff.mpr (has.apart.error_iff.mp ⟨after, failed⟩)⟩
    · rintro ⟨rfl, reached⟩
      obtain ⟨page, failed⟩ := has.apart.error_iff.mpr (has.error_iff.mp reached)
      obtain rfl := Writing.apart_error_page failed
      exact failed
  constructor
  case apart => exact apart
  case failed => exact failed
  case subexpression =>
    intro after
    rw [Writing.subexpression_ok_iff]
    exact exists_congr fun ordinals => apart ordinals after
  case subexpressionFailed =>
    intro error after
    rw [Writing.subexpression_error_iff]
    exact failed error after
  case inlined =>
    intro ordinals after
    rw [script.inline.run_hasEffect.ok_iff, has.ok_iff, script.effect_inline]
  case regrouped =>
    intro other same ordinals after
    have equal : other.effect = script.effect := by rw [← other.effect_inline, same, script.effect_inline]
    rw [other.run_hasEffect.ok_iff, has.ok_iff, equal]

end Script

end FilterSql.Sql
