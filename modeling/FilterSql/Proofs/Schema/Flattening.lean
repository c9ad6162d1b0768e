import FilterSql.Schema.Record

/-!
# Fields that a record shows

A record shows its own fields and those of the records embedded in it, which come behind its own, and so on for as many
embeddings as are entered. A name is looked for in this list, and the first field of the name is the one that is found.
-/

set_option autoImplicit false

namespace FilterSql.Schema

variable {ρ : Type} [RecordType ρ]

def ownFields (record : ρ) : List (Field ρ) :=
  (fields record).filter (!·.embedded)

/-- The records behind the embedded fields. An embedded field without one shows nothing. -/
def embeddedRecords (record : ρ) : List ρ :=
  ((fields record).filter (·.embedded)).filterMap (·.nested)

/-- The fields that are shown by a record which is itself `level` embeddings deep: its own, and then those of its
embedded records. -/
def flattened (record : ρ) (level : Nat) : List (Field ρ) :=
  ownFields record ++
    if level < maxEmbedding then (embeddedRecords record).flatMap fun inner => flattened inner (level + 1) else []
termination_by maxEmbedding - level

theorem mem_ownFields {record : ρ} {field : Field ρ} :
    field ∈ ownFields record ↔ field ∈ fields record ∧ field.embedded = false := by
  simp [ownFields]

theorem mem_embeddedRecords {record inner : ρ} :
    inner ∈ embeddedRecords record ↔
      ∃ field ∈ fields record, field.embedded = true ∧ field.nested = some inner := by
  simp [embeddedRecords, and_assoc]

/-! ## The first field of a name -/

theorem find_ownFields (record : ρ) (name : String) :
    (ownFields record).find? (·.name == name) =
      (fields record).find? fun field => !field.embedded && field.name == name := by
  unfold ownFields
  rw [List.find?_filter]
  simp only [Bool.decide_and, Bool.decide_eq_true]

theorem findFieldWithin_zero (record : ρ) (name : String) :
    findFieldWithin 0 record name = (ownFields record).find? (·.name == name) := by
  rw [find_ownFields]
  unfold findFieldWithin
  cases (fields record).find? fun field => !field.embedded && field.name == name <;> rfl

theorem findFieldWithin_succ (depth : Nat) (record : ρ) (name : String) :
    findFieldWithin (depth + 1) record name =
      ((ownFields record).find? (·.name == name)).or
        ((embeddedRecords record).findSome? fun inner => findFieldWithin depth inner name) := by
  rw [find_ownFields]
  rw [findFieldWithin]
  cases (fields record).find? fun field => !field.embedded && field.name == name <;> rfl

theorem findFieldWithin_eq_find {depth level : Nat} (room : level + depth = maxEmbedding) (record : ρ) (name : String) :
    findFieldWithin depth record name = (flattened record level).find? (·.name == name) := by
  -- What is left of the embeddings decreases as the level rises, the record being another one each time.
  induction depth generalizing level record with
  | zero => rw [findFieldWithin_zero, flattened, if_neg (by omega), List.append_nil]
  | succ depth ih =>
      have within : (fun inner : ρ => findFieldWithin depth inner name) =
          fun inner => (flattened inner (level + 1)).find? (·.name == name) :=
        funext fun inner => ih (by omega) inner
      rw [findFieldWithin_succ, flattened, if_pos (by omega), List.find?_append, List.find?_flatMap, within]

theorem findField_eq_find (record : ρ) (name : String) :
    findField record name = (flattened record 0).find? (·.name == name) :=
  findFieldWithin_eq_find (Nat.zero_add _) record name

/-! ## Where the fields come from -/

/-- The second record is embedded in the first one, as many embeddings deep as there are steps. -/
inductive Embeds : (steps : Nat) → ρ → ρ → Prop where
  | self {record : ρ} : Embeds 0 record record
  | inside {steps : Nat} {record inner holder : ρ} {field : Field ρ} :
      field ∈ fields record → field.embedded = true → field.nested = some inner → Embeds steps inner holder →
      Embeds (steps + 1) record holder

/-- The field is one of the own fields of a record that is at most `steps` embeddings deep. -/
inductive Shown (steps : Nat) (record : ρ) (field : Field ρ) : Prop where
  | of {taken : Nat} {holder : ρ} :
      taken ≤ steps → Embeds taken record holder → field ∈ fields holder → field.embedded = false →
      Shown steps record field

theorem Shown.inside {steps : Nat} {record inner : ρ} {holder field : Field ρ} (shown : Shown steps inner field)
    (member : holder ∈ fields record) (embedded : holder.embedded = true) (nested : holder.nested = some inner) :
    Shown (steps + 1) record field := by
  obtain ⟨within, embeds, among, plain⟩ := shown
  exact .of (Nat.succ_le_succ within) (.inside member embedded nested embeds) among plain

theorem mem_flattened_iff {depth level : Nat} (room : level + depth = maxEmbedding) {record : ρ} {field : Field ρ} :
    field ∈ flattened record level ↔ Shown depth record field := by
  induction depth generalizing level record with
  | zero =>
      rw [flattened, if_neg (by omega), List.append_nil, mem_ownFields]
      constructor
      · rintro ⟨member, plain⟩
        exact .of (Nat.le_refl 0) .self member plain
      · rintro ⟨within, embeds, member, plain⟩
        obtain rfl := Nat.le_zero.mp within
        cases embeds
        exact ⟨member, plain⟩
  | succ depth ih =>
      rw [flattened, if_pos (by omega), List.mem_append, mem_ownFields, List.mem_flatMap]
      constructor
      · rintro (⟨member, plain⟩ | ⟨inner, member, among⟩)
        · exact .of (Nat.zero_le _) .self member plain
        · obtain ⟨holder, known, embedded, nested⟩ := mem_embeddedRecords.mp member
          exact ((ih (by omega)).mp among).inside known embedded nested
      · rintro ⟨within, embeds, member, plain⟩
        cases embeds with
        | self => exact .inl ⟨member, plain⟩
        | inside known embedded nested further =>
            refine .inr ⟨_, mem_embeddedRecords.mpr ⟨_, known, embedded, nested⟩, ?_⟩
            exact (ih (by omega)).mpr (.of (Nat.le_of_succ_le_succ within) further member plain)

/-- What a record shows under a name. -/
structure Lookup (record : ρ) (name : String) : Prop where
  first : findField record name = (flattened record 0).find? (·.name == name)
  found_iff : (∃ field, findField record name = some field) ↔
    ∃ field, Shown maxEmbedding record field ∧ field.name = name
  /-- The record's own fields hide those of the records embedded in it. -/
  own : ∀ field, (ownFields record).find? (·.name == name) = some field → findField record name = some field
  /-- What is found is not embedded, and no record but embedded ones stands around it. -/
  shown : ∀ field, findField record name = some field → field.name = name ∧ Shown maxEmbedding record field

/-- A name is looked for in the flattened list of the fields, in which each field stands that is reached by embeddings
alone, whatever records embed each other or themselves. -/
theorem findField_lookup (record : ρ) (name : String) : Lookup record name where
  first := findField_eq_find record name
  found_iff := by
    rw [findField_eq_find, ← Option.isSome_iff_exists, List.find?_isSome]
    simp only [mem_flattened_iff (Nat.zero_add maxEmbedding), beq_iff_eq]
  own field found := by
    rw [findField_eq_find, flattened, List.find?_append, found, Option.some_or]
  shown field found := by
    rw [findField_eq_find] at found
    have named := List.find?_some found
    exact ⟨beq_iff_eq.mp named, (mem_flattened_iff (Nat.zero_add maxEmbedding)).mp (List.mem_of_find?_eq_some found)⟩

/-- Records each of which embeds the next one, down to one that has a field and embeds itself. -/
structure Rung where
  height : Nat

instance : RecordType Rung where
  typeName _ := "Rung"
  fields rung :=
    { name := "below", column := "", typeName := "Rung", embedded := true, type := none,
      nested := some ⟨rung.height - 1⟩ } ::
    if rung.height = 0 then
      [{ name := "ground", column := "ground", typeName := "text", embedded := false, type := some (.scalar .text),
         nested := none }]
    else []

/-- A field is found through 32 embeddings and not through 33, and the name of an embedded field never is. -/
theorem findField_lookup_rung :
    (∃ field, Shown maxEmbedding (Rung.mk 32) field ∧ field.name = "ground") ∧
      (¬ ∃ field, Shown maxEmbedding (Rung.mk 33) field ∧ field.name = "ground") ∧
      ¬ ∃ field, Shown maxEmbedding (Rung.mk 0) field ∧ field.name = "below" := by
  refine ⟨(findField_lookup _ _).found_iff.mp (Option.isSome_iff_exists.mp (by decide +kernel)), ?_, ?_⟩
  · rw [← (findField_lookup _ _).found_iff, ← Option.isSome_iff_exists]
    decide +kernel
  · rw [← (findField_lookup _ _).found_iff, ← Option.isSome_iff_exists]
    decide +kernel

end FilterSql.Schema
