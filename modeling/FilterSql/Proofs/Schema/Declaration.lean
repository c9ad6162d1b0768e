import FilterSql.Proofs.Schema.Exposure
import FilterSql.Proofs.Schema.Flattening
import FilterSql.Proofs.Schema.Validation

/-!
# What is declared of a field

A document declares of each field whether it holds a list. The schema that is loaded keeps this of the fields with a
type and drops it of those with a record. So that the declaration can still be asked for, a document is a record type of
its own here: paths and literals lead through it as they lead through the schema, to the same fields with more said of
them.
-/

set_option autoImplicit false

namespace FilterSql.Schema

/-- A record of a document, and whether the field it stands behind is declared to hold a list. -/
structure Declared where
  record : RecordDocument
  list : Bool

namespace Declared

def label (document : FieldDocument RecordDocument) : String :=
  match document.kind, document.record with
  | some kind, _ => scalarLabel kind document.nullable document.array
  | none, some inner => inner.name
  | none, none => ""

def field (document : FieldDocument RecordDocument) : Field Declared where
  name := document.name
  column := document.column
  typeName := label document
  embedded := document.embed
  type := document.kind.map fun kind => kind.fieldType document.nullable document.array
  nested := document.record.map fun inner => ⟨inner, document.array⟩

instance : RecordType Declared where
  typeName declared := declared.record.name
  fields declared := declared.record.fields.map field

def Loads (declared : Declared) (schema : Schema) : Prop :=
  validate declared.record = .ok schema

/-- The loaded field is the declared one, but for what is declared of records. -/
structure Agrees (declared : Field Declared) (loaded : Field Schema) : Prop where
  name : declared.name = loaded.name
  column : declared.column = loaded.column
  embedded : declared.embedded = loaded.embedded
  type : declared.type = loaded.type
  nested : Option.Rel Loads declared.nested loaded.nested

theorem agrees_of_describes {document : FieldDocument RecordDocument} {loaded : Field Schema}
    (describes : Describes document loaded) : Agrees (field document) loaded where
  name := describes.name.symm
  column := describes.column.symm
  embedded := describes.embedded.symm
  type := describes.type.symm
  nested := by
    have behind := describes.nested
    change Option.Rel Loads (document.record.map _) loaded.nested
    revert behind
    generalize document.record = record?, loaded.nested = nested?
    rintro (loads | _)
    · exact .some loads
    · exact .none

theorem fields_agree {declared : Declared} {schema : Schema} (loads : declared.Loads schema) :
    List.Forall₂ Agrees (fields declared) (fields schema) :=
  List.forall₂_map_left_iff.mpr ((fields_of_validate loads).imp fun _ _ => agrees_of_describes)

/-! ## Looking for a name -/

theorem ownFields_agree {declared : Declared} {schema : Schema} (loads : declared.Loads schema) :
    List.Forall₂ Agrees (ownFields declared) (ownFields schema) :=
  List.rel_filter (fun _ _ agrees => by simp [agrees.embedded]) (fields_agree loads)

theorem embeddedRecords_load {declared : Declared} {schema : Schema} (loads : declared.Loads schema) :
    List.Forall₂ Loads (embeddedRecords declared) (embeddedRecords schema) :=
  List.rel_filterMap (fun _ _ agrees => agrees.nested)
    (List.rel_filter (fun _ _ agrees => by simp [agrees.embedded]) (fields_agree loads))

theorem flattened_agree {depth level : Nat} (room : level + depth = maxEmbedding) {declared : Declared}
    {schema : Schema}
    (loads : declared.Loads schema) :
    List.Forall₂ Agrees (flattened declared level) (flattened schema level) := by
  induction depth generalizing level declared schema with
  | zero =>
      rw [flattened, flattened, if_neg (by omega), if_neg (by omega), List.append_nil, List.append_nil]
      exact ownFields_agree loads
  | succ depth ih =>
      rw [flattened, flattened, if_pos (by omega), if_pos (by omega)]
      have deeper : level + 1 + depth = maxEmbedding := by omega
      exact List.rel_append (ownFields_agree loads)
        (List.rel_flatMap (embeddedRecords_load loads) fun _ _ inner => ih deeper inner)

theorem find_agree {name : String} {declared : List (Field Declared)} {loaded : List (Field Schema)}
    (each : List.Forall₂ Agrees declared loaded) :
    Option.Rel Agrees (declared.find? (·.name == name)) (loaded.find? (·.name == name)) := by
  induction each with
  | nil => exact .none
  | @cons first other _ _ agrees _ ih =>
      rw [List.find?_cons, List.find?_cons, agrees.name]
      cases other.name == name with
      | true => exact .some agrees
      | false => exact ih

theorem findField_agree {declared : Declared} {schema : Schema} (loads : declared.Loads schema) (name : String) :
    Option.Rel Agrees (findField declared name) (findField schema name) := by
  rw [findField_eq_find, findField_eq_find]
  exact find_agree (flattened_agree (Nat.zero_add maxEmbedding) loads)

theorem holdsRecord_loaded {field : Field Declared} {other : Field Schema} (agrees : Agrees field other)
    {inner : Declared} (holds : field.HoldsRecord inner) : ∃ schema, inner.Loads schema ∧ other.HoldsRecord schema := by
  have behind := agrees.nested
  rw [holds.nested] at behind
  cases nested : other.nested with
  | none =>
      rw [nested] at behind
      cases behind
  | some schema =>
      rw [nested] at behind
      cases behind with
      | some loads => exact ⟨schema, loads, agrees.type ▸ holds.untyped, nested⟩

/-! ## Resolution -/

/-- Both results are rejections, or what is accepted is related. -/
inductive Alike {α β : Type} (related : α → β → Prop) : Except CompileError α → Except CompileError β → Prop where
  | ok {left : α} {right : β} : related left right → Alike related (.ok left) (.ok right)
  | error {left right : CompileError} : Alike related (.error left) (.error right)

theorem Alike.bind {α β γ δ : Type} {related : α → β → Prop} {result : γ → δ → Prop} {left : Except CompileError α}
    {right : Except CompileError β} {next : α → Except CompileError γ} {other : β → Except CompileError δ}
    (start : Alike related left right) (rest : ∀ a b, related a b → Alike result (next a) (other b)) :
    Alike result (left >>= next) (right >>= other) := by
  cases start with
  | ok same => exact rest _ _ same
  | error => exact .error

theorem storedField_alike (path : String) {declared : Declared} {schema : Schema} (loads : declared.Loads schema)
    (name : String) : Alike Agrees (storedField path declared name) (storedField path schema name) := by
  unfold storedField
  have found := findField_agree loads name
  revert found
  generalize findField declared name = left, findField schema name = right
  rintro (agrees | _)
  · dsimp only
    rw [agrees.column]
    split
    · exact .error
    · exact .ok agrees
  · exact .error

def SameWay (declared : List String × Field Declared) (loaded : List String × Field Schema) : Prop :=
  declared.1 = loaded.1 ∧ Agrees declared.2 loaded.2

theorem followSegments_alike (path : String) {field : Field Declared} {loaded : Field Schema}
    (agrees : Agrees field loaded) (names : List String) :
    Alike SameWay (followSegments path field names) (followSegments path loaded names) := by
  induction names generalizing field loaded with
  | nil => exact .ok ⟨congrArg (fun column => [column]) agrees.column, agrees⟩
  | cons name rest ih =>
      unfold followSegments
      have behind := agrees.nested
      revert behind
      generalize field.nested = left, loaded.nested = right
      rintro (loads | _)
      · refine (storedField_alike path loads name).bind fun _ _ next => (ih next).bind ?_
        rintro ⟨columns, last⟩ ⟨_, other⟩ ⟨rfl, same⟩
        exact .ok ⟨congrArg (· :: columns) agrees.column, same⟩
      · exact .error

def SameResolved (declared : Resolved Declared) (loaded : Resolved Schema) : Prop :=
  declared.path = loaded.path ∧ Agrees declared.field loaded.field

theorem resolve_alike {declared : Declared} {schema : Schema} (loads : declared.Loads schema) (path : String) :
    Alike SameResolved (resolve (some declared) path) (resolve (some schema) path) := by
  unfold resolve
  split
  · exact .error
  · cases pathSegments path with
    | nil => exact .error
    | cons first rest =>
        refine (storedField_alike path loads first).bind fun _ _ agrees =>
          (followSegments_alike path agrees rest).bind ?_
        rintro ⟨columns, last⟩ ⟨_, other⟩ ⟨rfl, same⟩
        dsimp only
        cases Sql.FieldPath.ofSegments columns with
        | error error => exact .error
        | ok columnPath => exact .ok ⟨rfl, same⟩

/-! ## Literals -/

theorem chain_loaded {declared holder : Declared} {literal value : Json} {names : List String} {name : String}
    (chain : Chain declared literal names holder name value) {schema : Schema} (loads : declared.Loads schema) :
    ∃ inner, holder.Loads inner ∧ Chain schema literal names inner name value := by
  induction chain generalizing schema with
  | item member _ ih =>
      obtain ⟨inner, holderLoads, within⟩ := ih loads
      exact ⟨inner, holderLoads, .item member within⟩
  | member member => exact ⟨schema, loads, .member member⟩
  | @inside _ _ _ _ key _ _ _ field _ member found holds _ ih =>
      have looked := findField_agree loads key
      rw [found] at looked
      cases other : findField schema key with
      | none =>
          rw [other] at looked
          cases looked
      | some loaded =>
          rw [other] at looked
          cases looked with
          | some agrees =>
              obtain ⟨next, nextLoads, nextHolds⟩ := holdsRecord_loaded agrees holds
              obtain ⟨inner, holderLoads, within⟩ := ih nextLoads
              exact ⟨inner, holderLoads, .inside member other nextHolds within⟩

end Declared

end FilterSql.Schema
