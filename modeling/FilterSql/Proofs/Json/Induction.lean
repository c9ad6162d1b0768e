import FilterSql.Json.Basic

/-!
# Induction on JSON values

A list holds of a property whenever its items do, and an object whenever its members do.
-/

set_option autoImplicit false

namespace FilterSql.Json

mutual

@[elab_as_elim, induction_eliminator]
theorem induct {motive : Json → Prop} (null : motive .null) (bool : ∀ value, motive (.bool value))
    (number : ∀ value, motive (.number value)) (string : ∀ value, motive (.string value))
    (array : ∀ items, (∀ item ∈ items, motive item) → motive (.array items))
    (object : ∀ members, (∀ member ∈ members, motive member.2) → motive (.object members)) :
    ∀ value, motive value
  | .null => null
  | .bool value => bool value
  | .number value => number value
  | .string value => string value
  | .array items => array items (inductItems null bool number string array object items)
  | .object members => object members (inductMembers null bool number string array object members)

theorem inductItems {motive : Json → Prop} (null : motive .null) (bool : ∀ value, motive (.bool value))
    (number : ∀ value, motive (.number value)) (string : ∀ value, motive (.string value))
    (array : ∀ items, (∀ item ∈ items, motive item) → motive (.array items))
    (object : ∀ members, (∀ member ∈ members, motive member.2) → motive (.object members)) :
    ∀ items : List Json, ∀ item ∈ items, motive item
  | [] => by simp
  | item :: rest =>
      List.forall_mem_cons.mpr
        ⟨induct null bool number string array object item, inductItems null bool number string array object rest⟩

theorem inductMembers {motive : Json → Prop} (null : motive .null) (bool : ∀ value, motive (.bool value))
    (number : ∀ value, motive (.number value)) (string : ∀ value, motive (.string value))
    (array : ∀ items, (∀ item ∈ items, motive item) → motive (.array items))
    (object : ∀ members, (∀ member ∈ members, motive member.2) → motive (.object members)) :
    ∀ members : List (String × Json), ∀ member ∈ members, motive member.2
  | [] => by simp
  | (_, value) :: rest =>
      List.forall_mem_cons.mpr
        ⟨induct null bool number string array object value,
          inductMembers null bool number string array object rest⟩

end

end FilterSql.Json
