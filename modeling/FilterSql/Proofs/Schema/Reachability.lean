import FilterSql.Proofs.Json.Induction
import FilterSql.Proofs.Schema.Descent
import FilterSql.Schema.RecordLiteral

/-!
# Fields that can be got to

What expressions and literals can refer to are fields of a record, of the records behind these, and so on. Where all of
them have a type or a record, every cast is answered by one of the two.
-/

set_option autoImplicit false

namespace FilterSql.Schema

variable {ρ : Type} [RecordType ρ]

/-- The fields of a record, and those of the records behind its fields. -/
inductive Reachable : ρ → Field ρ → Prop where
  | own {record : ρ} {field : Field ρ} : field ∈ fields record → Reachable record field
  | behind {record inner : ρ} {holder field : Field ρ} :
      holder ∈ fields record → holder.nested = some inner → Reachable inner field → Reachable record field

theorem Reachable.trans {record inner : ρ} {holder field : Field ρ} (first : Reachable record holder)
    (nested : holder.nested = some inner) (second : Reachable inner field) : Reachable record field := by
  induction first with
  | own member => exact .behind member nested second
  | behind member between _ ih => exact .behind member between (ih nested)

theorem reachable_of_findFieldWithin {depth : Nat} {record : ρ} {name : String} {field : Field ρ}
    (found : findFieldWithin depth record name = some field) : Reachable record field := by
  induction depth generalizing record with
  | zero =>
      unfold findFieldWithin at found
      cases direct : (fields record).find? fun field => !field.embedded && field.name == name with
      | none => simp [direct] at found
      | some own =>
          simp only [direct, Option.some.injEq] at found
          exact found ▸ .own (List.mem_of_find?_eq_some direct)
  | succ inner ih =>
      unfold findFieldWithin at found
      cases direct : (fields record).find? fun field => !field.embedded && field.name == name with
      | some own =>
          simp only [direct, Option.some.injEq] at found
          exact found ▸ .own (List.mem_of_find?_eq_some direct)
      | none =>
          simp only [direct] at found
          obtain ⟨embedded, member, within⟩ := List.exists_of_findSome?_eq_some found
          obtain ⟨holder, among, nested⟩ := List.mem_filterMap.mp member
          exact .behind (List.mem_filter.mp among).1 nested (ih within)

theorem reachable_of_findField {record : ρ} {name : String} {field : Field ρ}
    (found : findField record name = some field) : Reachable record field :=
  reachable_of_findFieldWithin found

theorem findField_of_storedField {path : String} {record : ρ} {name : String} {field : Field ρ}
    (stored : storedField path record name = .ok field) : findField record name = some field := by
  unfold storedField at stored
  cases found : findField record name with
  | none => simp [found] at stored
  | some shown =>
      simp only [found] at stored
      split at stored
      · cases stored
      · cases stored
        rfl

theorem reachable_of_followSegments {path : String} {record : ρ} {field : Field ρ} {names : List String}
    {found : List String × Field ρ} (start : Reachable record field)
    (followed : followSegments path field names = .ok found) : Reachable record found.2 := by
  induction names generalizing field found with
  | nil =>
      cases followed
      exact start
  | cons name rest ih =>
      rw [followSegments_cons] at followed
      obtain ⟨last, continued, rejoined⟩ := ok_of_bind followed
      cases rejoined
      obtain ⟨inner, behind, descended⟩ := descendFrom_ok continued
      rw [descend_cons] at descended
      obtain ⟨next, stored, further⟩ := ok_of_bind descended
      have shown := reachable_of_findField (findField_of_storedField stored)
      exact (ih (start.trans behind shown) further : Reachable record last.2)

theorem reachable_of_resolve {record : ρ} {path : String} {resolved : Resolved ρ}
    (accepted : resolve (some record) path = .ok resolved) : Reachable record resolved.field := by
  by_cases dotted : isDottedPath path = true
  · rw [resolve_ok_iff record dotted] at accepted
    obtain ⟨name, rest, segments⟩ := List.exists_cons_of_ne_nil (pathSegments_ne_nil path)
    rw [segments, descend_cons] at accepted
    obtain ⟨field, stored, followed⟩ := ok_of_bind accepted
    exact reachable_of_followSegments (reachable_of_findField (findField_of_storedField stored)) followed
  · unfold resolve at accepted
    simp [dotted] at accepted

/-! ## Literals of fields -/

/-- The rejections of a literal because its field has no literals at all. -/
inductive WithoutLiterals : DecodeError → Prop where
  | field : WithoutLiterals .noLiterals
  | member {name : String} : WithoutLiterals (.memberTakesNoLiterals name)

/-- If the result is a rejection, it is one of the literal. -/
def Judged {α : Type} (result : Except DecodeError α) : Prop :=
  ∀ error, result = .error error → ¬ WithoutLiterals error

theorem judged_ok {α : Type} (value : α) : Judged (.ok value : Except DecodeError α) := by
  intro error rejected
  cases rejected

theorem judged_error {α : Type} {error : DecodeError} (other : ¬ WithoutLiterals error) :
    Judged (.error error : Except DecodeError α) := by
  intro _ rejected
  cases rejected
  exact other

theorem Judged.bind {α β : Type} {first : Except DecodeError α} {next : α → Except DecodeError β}
    (start : Judged first) (rest : ∀ value, Judged (next value)) : Judged (first >>= next) := by
  cases first with
  | error error => exact judged_error (start error rfl)
  | ok value => exact rest value

theorem judged_mapError {ε α : Type} (result : Except ε α) {reason : ε → DecodeError}
    (other : ∀ error, ¬ WithoutLiterals (reason error)) : Judged (result.mapError reason) := by
  cases result with
  | error error => exact judged_error (other error)
  | ok value => exact judged_ok value

theorem judged_mapM {α : Type} {decode : Json → Except DecodeError α} {items : List Json}
    (each : ∀ item, Judged (decode item)) : Judged (items.mapM decode) := by
  induction items with
  | nil => exact judged_ok _
  | cons item rest ih =>
      rw [List.mapM_cons]
      exact (each item).bind fun _ => ih.bind fun _ => judged_ok _

theorem decodeInteger_judged (type : IntegerType) (value : Int) : Judged (ScalarType.decodeInteger type value) := by
  unfold ScalarType.decodeInteger
  split
  · split
    · exact judged_ok _
    · exact judged_error nofun
  · exact judged_error nofun

theorem scalarType_decode_judged (type : ScalarType) (literal : Json) : Judged (type.decode literal) := by
  unfold ScalarType.decode
  split
  case h_1 | h_2 | h_4 | h_5 | h_6 | h_11 => exact judged_ok _
  case h_3 => exact decodeInteger_judged _ _
  case h_7 | h_8 | h_9 | h_10 => exact judged_mapError _ fun _ => nofun
  case h_12 => exact judged_error nofun

theorem fieldType_decode_judged (type : FieldType) (literal : Json) : Judged (type.decode literal) := by
  induction type generalizing literal with
  | scalar type => exact scalarType_decode_judged type literal
  | option type ih =>
      unfold FieldType.decode
      split
      · exact judged_ok _
      · exact ih literal
  | list type ih =>
      cases literal with
      | array items => exact (judged_mapM ih).bind fun _ => judged_ok _
      | null | bool | number | string | object => exact judged_error nofun
  | boxed type ih => exact ih literal
  | custom decoder => exact judged_mapError (decoder literal) fun _ => nofun

/-- Every field that can be got to from the record has a type or a record. -/
def Answerable (record : ρ) : Prop :=
  ∀ field, Reachable record field → field.type.isSome = true ∨ field.nested.isSome = true

theorem Answerable.inner {record inner : ρ} (answerable : Answerable record) {holder : Field ρ}
    (reached : Reachable record holder) (nested : holder.nested = some inner) : Answerable inner :=
  fun field within => answerable field (reached.trans nested within)

theorem checkItems_judged {record : ρ} {depth : Nat} {items : List Json}
    (each : ∀ item ∈ items, Judged (checkLiteral record depth item)) : Judged (checkItems record depth items) := by
  induction items with
  | nil => exact judged_ok _
  | cons item rest ih =>
      obtain ⟨first, others⟩ := List.forall_mem_cons.mp each
      unfold checkItems
      exact first.bind fun _ => ih others

theorem checkMembers_judged {record : ρ} (answerable : Answerable record) {depth : Nat} {members : List (String × Json)}
    (each : ∀ member ∈ members, ∀ inner : ρ, Answerable inner → Judged (checkLiteral inner (depth + 1) member.2)) :
    Judged (checkMembers record depth members) := by
  induction members with
  | nil => exact judged_ok _
  | cons member rest ih =>
      obtain ⟨name, value⟩ := member
      obtain ⟨first, others⟩ := List.forall_mem_cons.mp each
      unfold checkMembers
      cases found : findField record name with
      | none => exact judged_error nofun
      | some field =>
          have reached := reachable_of_findField found
          cases typed : field.type with
          | some type =>
              simp only [typed]
              exact (fieldType_decode_judged type value).bind fun _ => ih others
          | none =>
              cases behind : field.nested with
              | some inner =>
                  simp only [typed, behind]
                  exact (first inner (answerable.inner reached behind)).bind fun _ => ih others
              | none =>
                  have answered := answerable field reached
                  simp [typed, behind] at answered

theorem checkLiteral_judged {record : ρ} (answerable : Answerable record) (depth : Nat) (literal : Json) :
    Judged (checkLiteral record depth literal) := by
  -- Members stand in other records and deeper, so both are general.
  induction literal generalizing record depth with
  | null =>
      unfold checkLiteral
      split
      · exact judged_error nofun
      · exact judged_ok _
  | bool | number | string =>
      unfold checkLiteral
      split <;> exact judged_error nofun
  | array items ih =>
      unfold checkLiteral
      split
      · exact judged_error nofun
      · exact checkItems_judged fun item member => ih item member answerable (depth + 1)
  | object members ih =>
      unfold checkLiteral
      split
      · exact judged_error nofun
      · exact checkMembers_judged answerable fun entry member inner within => ih entry member within (depth + 1)

theorem Answerable.decode_judged {record : ρ} (answerable : Answerable record) {field : Field ρ}
    (reached : Reachable record field) (literal : Json) : Judged (field.decode literal) := by
  unfold Field.decode
  cases typed : field.type with
  | some type => exact fieldType_decode_judged type literal
  | none =>
      cases behind : field.nested with
      | some inner =>
          dsimp only
          unfold decodeRecord
          split
          · exact judged_ok _
          · exact (checkLiteral_judged (answerable.inner reached behind) 0 literal).bind fun _ => judged_ok _
      | none =>
          have answered := answerable field reached
          simp [typed, behind] at answered

end FilterSql.Schema
