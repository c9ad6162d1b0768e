import FilterSql.Proofs.Schema.Reachability
import FilterSql.Schema.Loaded
import Mathlib.Data.List.Forall2

/-!
# Documents that make sense

What a document has to be for a schema to be loaded from it, said of each of its records and fields by themselves; all
that can be wrong with one, in the order of the document; and what the fields of a loaded schema are. A document is
rejected for the first thing that is wrong with it, and for nothing else.
-/

set_option autoImplicit false

namespace FilterSql.Schema

/-! ## Sense -/

/-- The record is the document, or stands behind one of its fields, however deep. -/
inductive RecordDocument.Contains : RecordDocument → RecordDocument → Prop where
  | self {document : RecordDocument} : Contains document document
  | inside {document inner record : RecordDocument} {field : FieldDocument RecordDocument} :
      field ∈ document.fields → field.record = some inner → Contains inner record → Contains document record

/-- The names that clients use, which embedded fields have none of. -/
def publicNames {ρ : Type} (fields : List (FieldDocument ρ)) : List String :=
  (fields.filter (!·.embed)).map (·.name)

structure FieldDocument.Sound {ρ : Type} (field : FieldDocument ρ) : Prop where
  /-- It has a type or a record, and not both. -/
  content : field.kind.isSome ≠ field.record.isSome
  embedded : field.embed = true → field.record.isSome = true
  named : field.embed = false → field.name ≠ ""

structure RecordDocument.WellFormed (document : RecordDocument) : Prop where
  sound : ∀ record, document.Contains record → ∀ field ∈ record.fields, field.Sound
  distinct : ∀ record, document.Contains record → (publicNames record.fields).Nodup

/-! ## All that is wrong -/

def shapeFlaw? {ρ : Type} (field : FieldDocument ρ) : Option Flaw :=
  match field.kind, field.record with
  | some _, some _ => some .typeAndRecord
  | none, none => some .neitherTypeNorRecord
  | some _, none => if field.embed then some .embeddedScalar else none
  | none, some _ => none

/-- What is wrong with the name of a field that stands behind others. -/
def namingFlaw? {ρ : Type} (earlier : List (FieldDocument ρ)) (field : FieldDocument ρ) : Option Flaw :=
  if field.embed then none
  else if field.name = "" then some .unnamed
  else if field.name ∈ publicNames earlier then some .duplicateName
  else none

def flawsOf {ρ : Type} (record : String) (field : FieldDocument ρ) (flaw? : Option Flaw) : List Invalid :=
  (flaw?.map (Invalid.mk record field.name)).toList

mutual

/-- All that is wrong with a document, in the order of the document. What is wrong with the content of a field comes
first, then what is wrong inside its record, then what is wrong with its name. -/
def RecordDocument.flaws : RecordDocument → List Invalid
  | .mk name fields => flawsAfter name [] fields

def flawsAfter (record : String) (earlier : List (FieldDocument RecordDocument)) :
    List (FieldDocument RecordDocument) → List Invalid
  | [] => []
  | ⟨name, column, kind, nested, nullable, array, embed⟩ :: rest =>
    let field : FieldDocument RecordDocument := ⟨name, column, kind, nested, nullable, array, embed⟩
    let inside := match nested with
      | none => []
      | some inner => inner.flaws
    flawsOf record field (shapeFlaw? field) ++ inside ++ flawsOf record field (namingFlaw? earlier field) ++
      flawsAfter record (earlier ++ [field]) rest

end

def flawsInside (field : FieldDocument RecordDocument) : List Invalid :=
  match field.record with
  | none => []
  | some inner => inner.flaws

theorem flawsAfter_cons (record : String) (earlier : List (FieldDocument RecordDocument))
    (field : FieldDocument RecordDocument) (rest : List (FieldDocument RecordDocument)) :
    flawsAfter record earlier (field :: rest) =
      flawsOf record field (shapeFlaw? field) ++ flawsInside field ++
        flawsOf record field (namingFlaw? earlier field) ++ flawsAfter record (earlier ++ [field]) rest := by
  rcases field with ⟨name, column, kind, _ | inner, nullable, array, embed⟩ <;> rfl

mutual

/-- What holds of a record whenever it holds of the records behind its fields holds of all documents. -/
theorem RecordDocument.induct {motive : RecordDocument → Prop}
    (mk : ∀ name fields, (∀ field ∈ fields, ∀ inner, FieldDocument.record field = some inner → motive inner) →
      motive (.mk name fields)) : ∀ document, motive document
  | .mk name fields => mk name fields (inductFields mk fields)

theorem RecordDocument.inductFields {motive : RecordDocument → Prop}
    (mk : ∀ name fields, (∀ field ∈ fields, ∀ inner, FieldDocument.record field = some inner → motive inner) →
      motive (.mk name fields)) :
    ∀ fields : List (FieldDocument RecordDocument), ∀ field ∈ fields, ∀ inner, field.record = some inner → motive inner
  | [] => by simp
  | ⟨_, _, _, none, _, _, _⟩ :: rest => List.forall_mem_cons.mpr ⟨nofun, RecordDocument.inductFields mk rest⟩
  | ⟨_, _, _, some nested, _, _, _⟩ :: rest =>
      have behind : ∀ inner, some nested = some inner → motive inner := fun _ same =>
        Option.some.inj same ▸ RecordDocument.induct mk nested
      List.forall_mem_cons.mpr ⟨behind, RecordDocument.inductFields mk rest⟩

end

theorem mem_flawsOf_iff {ρ : Type} {record : String} {field : FieldDocument ρ} {flaw? : Option Flaw}
    {invalid : Invalid} :
    invalid ∈ flawsOf record field flaw? ↔ ∃ flaw, flaw? = some flaw ∧ invalid = ⟨record, field.name, flaw⟩ := by
  cases flaw? <;> simp [flawsOf]

/-- The flaw is one of the content of a field, or of its name behind the fields before it. -/
def Flawed {ρ : Type} (earlier : List (FieldDocument ρ)) (field : FieldDocument ρ) (flaw : Flaw) : Prop :=
  shapeFlaw? field = some flaw ∨ namingFlaw? earlier field = some flaw

theorem mem_flawsAfter_iff {record : String} {earlier fields : List (FieldDocument RecordDocument)}
    {invalid : Invalid} :
    invalid ∈ flawsAfter record earlier fields ↔ ∃ front field back, fields = front ++ field :: back ∧
      (invalid ∈ flawsInside field ∨
        ∃ flaw, Flawed (earlier ++ front) field flaw ∧ invalid = ⟨record, field.name, flaw⟩) := by
  induction fields generalizing earlier with
  | nil => simp [flawsAfter]
  | cons first rest ih =>
      rw [flawsAfter_cons]
      simp only [List.mem_append, mem_flawsOf_iff, ih]
      constructor
      · rintro (((⟨flaw, shape, same⟩ | inside) | ⟨flaw, naming, same⟩) | ⟨front, field, back, split, wrong⟩)
        · exact ⟨[], first, rest, rfl, .inr ⟨flaw, .inl shape, same⟩⟩
        · exact ⟨[], first, rest, rfl, .inl inside⟩
        · rw [← List.append_nil earlier] at naming
          exact ⟨[], first, rest, rfl, .inr ⟨flaw, .inr naming, same⟩⟩
        · rw [List.append_assoc] at wrong
          exact ⟨first :: front, field, back, by rw [split, List.cons_append], wrong⟩
      · rintro ⟨front, field, back, split, wrong⟩
        cases front with
        | nil =>
            obtain ⟨rfl, rfl⟩ := List.cons.inj split
            rw [List.append_nil] at wrong
            rcases wrong with inside | ⟨flaw, shape | naming, same⟩
            · exact .inl (.inl (.inr inside))
            · exact .inl (.inl (.inl ⟨flaw, shape, same⟩))
            · exact .inl (.inr ⟨flaw, naming, same⟩)
        | cons head front =>
            obtain ⟨rfl, rfl⟩ := List.cons.inj split
            refine .inr ⟨front, field, back, rfl, ?_⟩
            rw [List.append_assoc]
            exact wrong

/-- One of the records has a field that is at fault, and is so for what the flaw says. -/
def RecordDocument.Violates (document : RecordDocument) (invalid : Invalid) : Prop :=
  ∃ record, document.Contains record ∧ ∃ front field back flaw,
    record.fields = front ++ field :: back ∧ Flawed front field flaw ∧ invalid = ⟨record.name, field.name, flaw⟩

theorem mem_flaws_iff {document : RecordDocument} {invalid : Invalid} :
    invalid ∈ document.flaws ↔ document.Violates invalid := by
  induction document using RecordDocument.induct with
  | mk name fields ih =>
      rw [RecordDocument.flaws, mem_flawsAfter_iff]
      constructor
      · rintro ⟨front, field, back, split, inside | ⟨flaw, fault, same⟩⟩
        · have member : field ∈ fields := split ▸ List.mem_append_right front List.mem_cons_self
          unfold flawsInside at inside
          cases behind : field.record with
          | none => simp [behind] at inside
          | some inner =>
              rw [behind] at inside
              obtain ⟨record, within, found⟩ := (ih field member inner behind).mp inside
              exact ⟨record, .inside member behind within, found⟩
        · exact ⟨_, .self, front, field, back, flaw, split, fault, same⟩
      · rintro ⟨record, within, front, field, back, flaw, split, fault, same⟩
        cases within with
        | self => exact ⟨front, field, back, split, .inr ⟨flaw, fault, same⟩⟩
        | @inside _ inner _ holder member behind within =>
            obtain ⟨before, after, holds⟩ := List.append_of_mem (member : holder ∈ fields)
            refine ⟨before, holder, after, holds, .inl ?_⟩
            unfold flawsInside
            rw [behind]
            exact (ih holder member inner behind).mpr ⟨record, within, front, field, back, flaw, split, fault, same⟩

/-! ## Nothing is wrong with a document that makes sense -/

theorem flawsOf_eq_nil_iff {ρ : Type} {record : String} {field : FieldDocument ρ} {flaw? : Option Flaw} :
    flawsOf record field flaw? = [] ↔ flaw? = none := by
  cases flaw? <;> simp [flawsOf]

theorem shapeFlaw_eq_none_iff {ρ : Type} {field : FieldDocument ρ} :
    shapeFlaw? field = none ↔
      field.kind.isSome ≠ field.record.isSome ∧ (field.embed = true → field.record.isSome = true) := by
  unfold shapeFlaw?
  cases field.kind <;> cases field.record <;> simp

theorem namingFlaw_eq_none_iff {ρ : Type} {earlier : List (FieldDocument ρ)} {field : FieldDocument ρ} :
    namingFlaw? earlier field = none ↔
      (field.embed = false → field.name ≠ "") ∧ (field.embed = false → field.name ∉ publicNames earlier) := by
  unfold namingFlaw?
  cases field.embed with
  | true => simp
  | false =>
      by_cases unnamed : field.name = ""
      · simp [unnamed]
      · by_cases repeated : field.name ∈ publicNames earlier <;> simp [unnamed, repeated]

theorem publicNames_append {ρ : Type} (front back : List (FieldDocument ρ)) :
    publicNames (front ++ back) = publicNames front ++ publicNames back := by
  simp [publicNames]

theorem nodup_publicNames_append_singleton {ρ : Type} {earlier : List (FieldDocument ρ)} {field : FieldDocument ρ}
    (distinct : (publicNames earlier).Nodup) :
    (publicNames (earlier ++ [field])).Nodup ↔ (field.embed = false → field.name ∉ publicNames earlier) := by
  rw [publicNames_append]
  cases embedded : field.embed with
  | true =>
      have none : publicNames [field] = [] := by simp [publicNames, embedded]
      simp [none, distinct]
  | false =>
      have alone : publicNames [field] = [field.name] := by simp [publicNames, embedded]
      rw [alone, List.nodup_append]
      constructor
      · intro ⟨_, _, apart⟩ _ member
        exact apart _ member _ (List.mem_singleton_self _) rfl
      · intro fresh
        refine ⟨distinct, List.pairwise_singleton _ _, ?_⟩
        rintro name member other single rfl
        exact fresh rfl (List.mem_singleton.mp single ▸ member)

theorem flawsAfter_eq_nil_iff {record : String} {earlier fields : List (FieldDocument RecordDocument)}
    (distinct : (publicNames earlier).Nodup) :
    flawsAfter record earlier fields = [] ↔
      (∀ field ∈ fields, field.Sound) ∧ (publicNames (earlier ++ fields)).Nodup ∧
        ∀ field ∈ fields, flawsInside field = [] := by
  induction fields generalizing earlier with
  | nil => simp [flawsAfter, distinct]
  | cons field rest ih =>
      rw [flawsAfter_cons]
      simp only [List.append_eq_nil_iff, flawsOf_eq_nil_iff, shapeFlaw_eq_none_iff, namingFlaw_eq_none_iff,
        List.forall_mem_cons]
      constructor
      · rintro ⟨⟨⟨⟨content, embedded⟩, inside⟩, named, fresh⟩, following⟩
        have extended := (nodup_publicNames_append_singleton distinct).mpr fresh
        obtain ⟨sound, apart, flawless⟩ := (ih extended).mp following
        rw [List.append_assoc] at apart
        exact ⟨⟨⟨content, embedded, named⟩, sound⟩, apart, inside, flawless⟩
      · rintro ⟨⟨⟨content, embedded, named⟩, sound⟩, apart, inside, flawless⟩
        have regrouped : (publicNames ((earlier ++ [field]) ++ rest)).Nodup := by
          rw [List.append_assoc]
          exact apart
        have extended : (publicNames (earlier ++ [field])).Nodup := by
          rw [publicNames_append] at regrouped
          exact (List.nodup_append.mp regrouped).1
        have fresh := (nodup_publicNames_append_singleton distinct).mp extended
        exact ⟨⟨⟨⟨content, embedded⟩, inside⟩, named, fresh⟩, (ih extended).mpr ⟨sound, regrouped, flawless⟩⟩

theorem wellFormed_mk_iff {name : String} {fields : List (FieldDocument RecordDocument)} :
    (RecordDocument.mk name fields).WellFormed ↔
      (∀ field ∈ fields, field.Sound) ∧ (publicNames fields).Nodup ∧
        ∀ field ∈ fields, ∀ inner, field.record = some inner → inner.WellFormed := by
  constructor
  · intro wellFormed
    refine ⟨wellFormed.sound _ .self, wellFormed.distinct _ .self, fun field member inner behind => ?_⟩
    constructor
    · exact fun record within => wellFormed.sound record (.inside member behind within)
    · exact fun record within => wellFormed.distinct record (.inside member behind within)
  · rintro ⟨sound, distinct, each⟩
    constructor
    · intro record within
      cases within with
      | self => exact sound
      | inside member behind within => exact (each _ member _ behind).sound record within
    · intro record within
      cases within with
      | self => exact distinct
      | inside member behind within => exact (each _ member _ behind).distinct record within

theorem wellFormed_iff_flaws (document : RecordDocument) : document.WellFormed ↔ document.flaws = [] := by
  induction document using RecordDocument.induct with
  | mk name fields ih =>
      have inside : (∀ field ∈ fields, flawsInside field = []) ↔
          ∀ field ∈ fields, ∀ inner, field.record = some inner → inner.WellFormed := by
        refine forall₂_congr fun field member => ?_
        unfold flawsInside
        cases behind : field.record with
        | none => simp
        | some inner => simp [ih field member inner behind]
      have start : (publicNames ([] : List (FieldDocument RecordDocument))).Nodup := List.nodup_nil
      rw [RecordDocument.flaws, flawsAfter_eq_nil_iff start, List.nil_append, inside, wellFormed_mk_iff]

/-! ## The first thing wrong is reported -/

/-- The result is the first of the flaws, or none where there is none. -/
def Reports {α : Type} (result : Except Invalid α) (flaws : List Invalid) : Prop :=
  ∀ invalid, result = .error invalid ↔ flaws.head? = some invalid

theorem reports_ok {α : Type} (value : α) : Reports (.ok value : Except Invalid α) [] := by
  intro invalid
  simp

theorem reports_error {α : Type} (invalid : Invalid) (flaws : List Invalid) :
    Reports (.error invalid : Except Invalid α) (invalid :: flaws) := by
  intro other
  simp

theorem Reports.bind {α β : Type} {first : Except Invalid α} {next : α → Except Invalid β} {flaws others : List Invalid}
    (start : Reports first flaws) (rest : ∀ value, first = .ok value → Reports (next value) others) :
    Reports (first >>= next) (flaws ++ others) := by
  cases first with
  | error error =>
      have found : flaws.head? = some error := (start error).mp rfl
      intro invalid
      change Except.error error = Except.error invalid ↔ _
      rw [List.head?_append, found, Except.error.injEq, Option.some_or, Option.some.injEq]
  | ok value =>
      have none : flaws = [] := by
        cases flaws with
        | nil => rfl
        | cons flaw _ => cases (start flaw).mpr rfl
      rw [none, List.nil_append]
      exact rest value rfl

theorem Reports.ok_iff {α : Type} {result : Except Invalid α} {flaws : List Invalid} (reports : Reports result flaws) :
    (∃ value, result = .ok value) ↔ flaws = [] := by
  cases result with
  | error error =>
      have found : flaws.head? = some error := (reports error).mp rfl
      constructor
      · rintro ⟨value, accepted⟩
        cases accepted
      · rintro rfl
        cases found
  | ok value =>
      refine iff_of_true ⟨value, rfl⟩ ?_
      cases flaws with
      | nil => rfl
      | cons flaw _ => cases (reports flaw).mpr rfl

/-- The member that a field of a document is loaded as, its name apart. -/
def memberOf (record : String) (field : FieldDocument RecordDocument) : Except Invalid (Member Schema) :=
  match field.kind, field.record with
  | some _, some _ => .error ⟨record, field.name, .typeAndRecord⟩
  | none, none => .error ⟨record, field.name, .neitherTypeNorRecord⟩
  | some kind, none =>
    if field.embed then .error ⟨record, field.name, .embeddedScalar⟩
    else .ok (.scalar field.name field.column kind field.nullable field.array)
  | none, some inner => do
    let type ← validate inner
    .ok (.record field.name field.column field.embed type)

theorem validateFields_cons (record : String) (taken : List String) (field : FieldDocument RecordDocument)
    (rest : List (FieldDocument RecordDocument)) :
    validateFields record taken (field :: rest) = (do
      let member ← memberOf record field
      match nameFlaw? taken field with
      | some flaw => .error ⟨record, field.name, flaw⟩
      | none => do
        let members ← validateFields record (takenAfter taken field) rest
        .ok (member :: members)) := by
  rcases field with ⟨name, column, _ | kind, _ | inner, nullable, array, embed⟩
  · rfl
  · simp only [validateFields, memberOf]
    cases validate inner <;> rfl
  · cases embed <;> rfl
  · rfl

theorem memberOf_reports {record : String} {field : FieldDocument RecordDocument}
    (inside : ∀ inner, field.record = some inner → Reports (validate inner) inner.flaws) :
    Reports (memberOf record field) (flawsOf record field (shapeFlaw? field) ++ flawsInside field) := by
  unfold memberOf flawsOf flawsInside shapeFlaw?
  cases kind : field.kind with
  | some kind =>
      cases behind : field.record with
      | some inner => exact reports_error _ _
      | none => cases field.embed with
        | true => exact reports_error _ _
        | false => exact reports_ok _
  | none =>
      cases behind : field.record with
      | none => exact reports_error _ _
      | some inner =>
          have after := (inside inner behind).bind fun type _ =>
            reports_ok (Member.record field.name field.column field.embed type)
          rw [List.append_nil] at after
          exact after

theorem nameFlaw_eq {taken : List String} {earlier : List (FieldDocument RecordDocument)}
    (same : ∀ name, name ∈ taken ↔ name ∈ publicNames earlier) (field : FieldDocument RecordDocument) :
    nameFlaw? taken field = namingFlaw? earlier field := by
  unfold nameFlaw? namingFlaw?
  simp only [List.contains_iff_mem, same]

theorem mem_takenAfter_iff {taken : List String} {earlier : List (FieldDocument RecordDocument)}
    (same : ∀ name, name ∈ taken ↔ name ∈ publicNames earlier) (field : FieldDocument RecordDocument) (name : String) :
    name ∈ takenAfter taken field ↔ name ∈ publicNames (earlier ++ [field]) := by
  rw [publicNames_append, List.mem_append, ← same]
  unfold takenAfter
  cases embedded : field.embed <;> simp [publicNames, embedded, or_comm]

theorem validateFields_reports {record : String} {fields : List (FieldDocument RecordDocument)}
    (inside : ∀ field ∈ fields, ∀ inner, field.record = some inner → Reports (validate inner) inner.flaws)
    {taken : List String} {earlier : List (FieldDocument RecordDocument)}
    (same : ∀ name, name ∈ taken ↔ name ∈ publicNames earlier) :
    Reports (validateFields record taken fields) (flawsAfter record earlier fields) := by
  induction fields generalizing taken earlier with
  | nil => exact reports_ok _
  | cons field rest ih =>
      obtain ⟨first, others⟩ := List.forall_mem_cons.mp inside
      rw [validateFields_cons, flawsAfter_cons, List.append_assoc (_ ++ _)]
      refine (memberOf_reports first).bind fun member _ => ?_
      rw [nameFlaw_eq same]
      cases namingFlaw? earlier field with
      | some flaw => exact reports_error _ _
      | none =>
          have following := (ih others (mem_takenAfter_iff same field)).bind fun members _ =>
            reports_ok (member :: members)
          rw [List.append_nil] at following
          exact following

theorem validate_reports (document : RecordDocument) : Reports (validate document) document.flaws := by
  induction document using RecordDocument.induct with
  | mk name fields ih =>
      have none : ∀ taken,
          taken ∈ ([] : List String) ↔ taken ∈ publicNames ([] : List (FieldDocument RecordDocument)) :=
        fun _ => Iff.rfl
      have all : Reports (validateFields name [] fields) (flawsAfter name [] fields) := validateFields_reports ih none
      have named := all.bind fun members _ => reports_ok (Schema.mk name members)
      rw [List.append_nil] at named
      exact named

theorem validate_ok_iff {document : RecordDocument} :
    (∃ schema, validate document = .ok schema) ↔ document.WellFormed := by
  rw [wellFormed_iff_flaws]
  exact (validate_reports document).ok_iff

/-! ## What is loaded -/

/-- The field of a loaded schema says what the document says of it. The record behind it is loaded in its turn. -/
structure Describes (document : FieldDocument RecordDocument) (field : Field Schema) : Prop where
  name : field.name = document.name
  column : field.column = document.column
  embedded : field.embedded = document.embed
  type : field.type = document.kind.map fun kind => kind.fieldType document.nullable document.array
  nested : Option.Rel (fun inner schema => validate inner = .ok schema) document.record field.nested

theorem memberOf_describes {record : String} {field : FieldDocument RecordDocument} {member : Member Schema}
    (accepted : memberOf record field = .ok member) : Describes field member.field := by
  unfold memberOf at accepted
  cases kind : field.kind with
  | some kind =>
      cases behind : field.record with
      | some inner => simp [*] at accepted
      | none =>
          cases embedded : field.embed with
          | true => simp [*] at accepted
          | false =>
              simp only [*, Bool.false_eq_true, if_false, Except.ok.injEq] at accepted
              subst accepted
              refine ⟨rfl, rfl, embedded.symm, ?_, ?_⟩
              · rw [kind]
                rfl
              · rw [behind]
                exact .none
  | none =>
      cases behind : field.record with
      | none => simp [*] at accepted
      | some inner =>
          simp only [*] at accepted
          obtain ⟨type, loaded, same⟩ := ok_of_bind accepted
          cases same
          refine ⟨rfl, rfl, rfl, ?_, ?_⟩
          · rw [kind]
            rfl
          · rw [behind]
            exact .some loaded

theorem validateFields_describes {record : String} {taken : List String} {fields : List (FieldDocument RecordDocument)}
    {members : List (Member Schema)} (accepted : validateFields record taken fields = .ok members) :
    List.Forall₂ Describes fields (members.map Member.field) := by
  induction fields generalizing taken members with
  | nil =>
      cases accepted
      exact .nil
  | cons field rest ih =>
      rw [validateFields_cons] at accepted
      obtain ⟨member, first, named⟩ := ok_of_bind accepted
      cases flaw : nameFlaw? taken field with
      | some flaw => simp [flaw] at named
      | none =>
          simp only [flaw] at named
          obtain ⟨others, following, same⟩ := ok_of_bind named
          cases same
          exact .cons (memberOf_describes first) (ih following)

theorem fields_of_validate {document : RecordDocument} {schema : Schema} (accepted : validate document = .ok schema) :
    List.Forall₂ Describes document.fields (fields schema) := by
  cases document with
  | mk name fields =>
      obtain ⟨members, loaded, same⟩ := ok_of_bind accepted
      cases same
      exact validateFields_describes loaded

theorem exists_describes {documents : List (FieldDocument RecordDocument)} {loaded : List (Field Schema)}
    (each : List.Forall₂ Describes documents loaded) {field : Field Schema} (member : field ∈ loaded) :
    ∃ document ∈ documents, Describes document field := by
  induction each with
  | nil => cases member
  | cons first _ ih =>
      rcases List.mem_cons.mp member with rfl | among
      · exact ⟨_, List.mem_cons_self, first⟩
      · obtain ⟨document, within, describes⟩ := ih among
        exact ⟨document, List.mem_cons_of_mem _ within, describes⟩

theorem Reachable.described {document : RecordDocument} {schema : Schema} (accepted : validate document = .ok schema)
    {field : Field Schema} (reached : Reachable schema field) :
    ∃ record, document.Contains record ∧ ∃ described ∈ record.fields, Describes described field := by
  induction reached generalizing document with
  | own member =>
      obtain ⟨described, among, describes⟩ := exists_describes (fields_of_validate accepted) member
      exact ⟨document, .self, described, among, describes⟩
  | behind member nested _ ih =>
      obtain ⟨described, among, describes⟩ := exists_describes (fields_of_validate accepted) member
      have loaded := describes.nested
      rw [nested] at loaded
      cases behind : described.record with
      | none =>
          rw [behind] at loaded
          cases loaded
      | some inner =>
          rw [behind] at loaded
          cases loaded with
          | some innerLoaded =>
              obtain ⟨record, within, further⟩ := ih innerLoaded
              exact ⟨record, .inside among behind within, further⟩

/-- A field has a type or a record, and not both, and only a record is embedded. -/
structure Field.OneContent {ρ : Type} (field : Field ρ) : Prop where
  content : field.type.isSome ≠ field.nested.isSome
  embedded : field.embedded = true → field.nested.isSome = true

theorem Describes.oneContent {document : FieldDocument RecordDocument} {field : Field Schema}
    (describes : Describes document field) (sound : document.Sound) : field.OneContent := by
  have typed : field.type.isSome = document.kind.isSome := by rw [describes.type, Option.isSome_map]
  have behind : field.nested.isSome = document.record.isSome := by
    have loaded := describes.nested
    revert loaded
    cases document.record <;> cases field.nested <;> rintro (_ | _) <;> rfl
  constructor
  · rw [typed, behind]
    exact sound.content
  · rw [describes.embedded, behind]
    exact sound.embedded

theorem oneContent_of_validate {document : RecordDocument} {schema : Schema} (accepted : validate document = .ok schema)
    {field : Field Schema} (reached : Reachable schema field) : field.OneContent := by
  obtain ⟨record, within, described, among, describes⟩ := reached.described accepted
  have wellFormed : document.WellFormed := validate_ok_iff.mp ⟨schema, accepted⟩
  exact describes.oneContent (wellFormed.sound record within described among)

theorem answerable_of_validate {document : RecordDocument} {schema : Schema}
    (accepted : validate document = .ok schema) :
    Answerable schema := by
  intro field reached
  have content := (oneContent_of_validate accepted reached).content
  cases typed : field.type with
  | some type => exact .inl rfl
  | none =>
      rw [typed] at content
      exact .inr (Option.isSome_iff_ne_none.mpr (by simpa using content))

section Parsed

variable {text : String} {document : RecordDocument} (parsed : RecordDocument.parse text = .ok document)
include parsed

theorem load_of_parse : load text = (validate document).mapError .invalid := by
  unfold load
  rw [parsed]
  rfl

theorem load_ok_iff {schema : Schema} : load text = .ok schema ↔ validate document = .ok schema := by
  rw [load_of_parse parsed]
  cases validate document <;> simp [Except.mapError]

theorem load_error_iff {error : LoadError} :
    load text = .error error ↔ ∃ invalid, document.flaws.head? = some invalid ∧ error = .invalid invalid := by
  rw [load_of_parse parsed]
  simp only [← validate_reports document _]
  cases validate document <;> simp [Except.mapError, eq_comm]

end Parsed

theorem parse_of_load {text : String} (taken : ∀ error, load text ≠ .error (.notRead error)) :
    ∃ document, RecordDocument.parse text = .ok document := by
  unfold load at taken
  cases parsed : RecordDocument.parse text with
  | ok document => exact ⟨document, rfl⟩
  | error error =>
      rw [parsed] at taken
      exact absurd rfl (taken error)

end FilterSql.Schema
