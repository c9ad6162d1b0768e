import FilterSql.Proofs.Expr.Faults
import FilterSql.Proofs.Schema.Declaration

/-!
# Literals in place of records

Wherever a literal stands for a record, in a cast or inside the literal of one, it is null, an object, or a list that is
made up of these. Of a list it is not asked whether the field is declared to hold one, nor whether there are lists in
it: the documented shapes are exactly what is left if no list stands but one of objects for a field that is declared so.
-/

set_option autoImplicit false

namespace FilterSql

open Schema (Chain Declared RecordDocument RecordType checkLiteral decodeRecord findField resolve)

/-! ## Shapes -/

def Json.isObject : Json → Bool
  | object _ => true
  | _ => false

/-- Null, an object, or a list of values of this shape, in any depth. -/
inductive Json.Listed : Json → Prop where
  | null : Listed .null
  | object {members : List (String × Json)} : Listed (.object members)
  | list {items : List Json} : (∀ item ∈ items, Listed item) → Listed (.array items)

/-- Null, an object, or, where a list is declared, a list of objects. -/
inductive Json.Documented (list : Bool) : Json → Prop where
  | null : Documented list .null
  | object {members : List (String × Json)} : Documented list (.object members)
  | objects {items : List Json} :
      list = true → (∀ item ∈ items, item.isObject = true) → Documented list (.array items)

theorem Json.Listed.documented_iff {literal : Json} (listed : literal.Listed) {list : Bool} :
    literal.Documented list ↔
      ∀ items, literal = .array items → list = true ∧ ∀ item ∈ items, item.isObject = true := by
  cases listed with
  | null => exact ⟨fun _ => nofun, fun _ => .null⟩
  | object => exact ⟨fun _ => nofun, fun _ => .object⟩
  | list _ =>
      constructor
      · rintro (_ | _ | ⟨declared, objects⟩) _ ⟨⟩
        exact ⟨declared, objects⟩
      · intro lists
        obtain ⟨declared, objects⟩ := lists _ rfl
        exact .objects declared objects

section Checked

variable {ρ : Type} [RecordType ρ]

theorem checkLiteral_listed {record : ρ} {depth : Nat} {literal : Json}
    (accepted : checkLiteral record depth literal = .ok ()) : literal.Listed := by
  induction literal generalizing depth with
  | null => exact .null
  | object members => exact .object
  | array items ih =>
      have each := Schema.checkItems_ok (Schema.checkLiteral_array_ok accepted)
      exact .list fun item member => ih item member (each item member)
  | bool | number | string =>
      unfold checkLiteral at accepted
      split at accepted <;> cases accepted

theorem decodeRecord_listed {record : ρ} {literal : Json} {bound : Sql.Value}
    (accepted : decodeRecord record literal = .ok bound) :
    literal.Listed ∧ (literal.isNull = false → checkLiteral record 0 literal = .ok ()) := by
  cases isNull : literal.isNull with
  | true =>
      cases literal with
      | null => exact ⟨.null, nofun⟩
      | bool | number | string | array | object => cases isNull
  | false =>
      obtain ⟨_, checked⟩ := Schema.checkLiteral_of_decodeRecord isNull accepted
      exact ⟨checkLiteral_listed checked, fun _ => checked⟩

end Checked

namespace Expr

/-! ## Casts -/

section Cast

variable {ρ : Type} [RecordType ρ]

/-- Somewhere in the expression, the literal is cast to the field at the end of the path. -/
inductive Casts (expr : Expr ρ) (path : String) (literal : Json) : Prop where
  | of {value : Json} {depth : Nat} :
      read expr.source expr.isBoolean expr.limits = .ok (some value) →
      ⟨depth, .array [.string path, literal]⟩ ∈ nodes 0 value → Operator.ofName? path = none →
      Casts expr path literal

theorem faultless_of_compile {expr : Expr ρ} {backend : Backend} {compiled : Compiled}
    (accepted : expr.compile backend = .ok compiled) {value : Json}
    (taken : read expr.source expr.isBoolean expr.limits = .ok (some value)) :
    ∀ part ∈ nodes 0 value, fault? expr.schema expr.limits.depthLimit part = none := by
  cases compile_ok accepted with
  | truth other =>
      rw [taken] at other
      cases other
  | @node node found other known =>
      obtain rfl : value = node := by simpa [taken] using other
      have first := rejection_skeleton expr.schema expr.limits.depthLimit 0 value
      rw [known] at first
      exact List.findSome?_eq_none_iff.mp first.symm

theorem castValue_of_faultless {schema : Option ρ} {limit depth : Nat} {name : String} {arguments : List Json}
    (unknown : Operator.ofName? name = none)
    (faultless : fault? schema limit ⟨depth, .array (.string name :: arguments)⟩ = none) :
    ∃ value, castValue schema name arguments = .ok value := by
  by_cases deep : limit < depth + 1
  · simp [fault?, listFaults, deep] at faultless
  · rw [fault_cast deep unknown] at faultless
    cases cast : castValue schema name arguments with
    | error error =>
        rw [cast] at faultless
        cases faultless
    | ok value => exact ⟨value, rfl⟩

theorem Casts.decoded {expr : Expr ρ} {path : String} {literal : Json} (casts : expr.Casts path literal)
    {backend : Backend} {compiled : Compiled} (accepted : expr.compile backend = .ok compiled) :
    ∃ resolved bound, resolve expr.schema path = .ok resolved ∧ resolved.field.decode literal = .ok bound := by
  obtain ⟨taken, node, unknown⟩ := casts
  obtain ⟨value, cast⟩ := castValue_of_faultless unknown (faultless_of_compile accepted taken _ node)
  have casting := castValue_casting expr.schema path [literal]
  rw [cast] at casting
  cases casting with
  | decoded known held => exact ⟨_, value, known, held⟩

end Cast

/-! ## Places of records -/

/-- In the literal that is cast to the field at the end of a path, the value stands for a record: the whole literal, or
a member of an object in it. Whether the field is declared to hold a list goes with the value. -/
inductive RecordLiteral (document : RecordDocument) (path : String) (literal : Json) : (list : Bool) → Json → Prop where
  | whole {resolved : Schema.Resolved Declared} {record : Declared} :
      resolve (some ⟨document, false⟩) path = .ok resolved → resolved.field.HoldsRecord record →
      RecordLiteral document path literal record.list literal
  | member {resolved : Schema.Resolved Declared} {outer holder record : Declared}
      {field : Schema.Field Declared} {names : List String} {name : String} {value : Json} :
      resolve (some ⟨document, false⟩) path = .ok resolved → resolved.field.HoldsRecord outer →
      Chain outer literal names holder name value → findField holder name = some field → field.HoldsRecord record →
      RecordLiteral document path literal record.list value

theorem decodeRecord_of_decode {field : Schema.Field Schema} {record : Schema} (holds : field.HoldsRecord record)
    {literal : Json} {bound : Sql.Value} (accepted : field.decode literal = .ok bound) :
    decodeRecord record literal = .ok bound := by
  unfold Schema.Field.decode at accepted
  rw [holds.untyped, holds.nested] at accepted
  exact accepted

section Loaded

variable {document : RecordDocument} {schema : Schema} (loads : (Declared.mk document false).Loads schema)
include loads

theorem RecordLiteral.listed {path : String} {literal value : Json} {list : Bool}
    (place : RecordLiteral document path literal list value) {resolved : Schema.Resolved Schema}
    (known : resolve (some schema) path = .ok resolved) {bound : Sql.Value}
    (decoded : resolved.field.decode literal = .ok bound) : value.Listed := by
  have alike := Declared.resolve_alike loads path
  rw [known] at alike
  cases place with
  | whole declared holds =>
      rw [declared] at alike
      cases alike with
      | ok same =>
          obtain ⟨record, _, holdsLoaded⟩ := Declared.holdsRecord_loaded same.2 holds
          exact (decodeRecord_listed (decodeRecord_of_decode holdsLoaded decoded)).1
  | @member _ outer holder inner field names name value declared holds chain found inside =>
      rw [declared] at alike
      cases alike with
      | ok same =>
          obtain ⟨record, recordLoads, holdsLoaded⟩ := Declared.holdsRecord_loaded same.2 holds
          obtain ⟨_, checked⟩ := decodeRecord_listed (decodeRecord_of_decode holdsLoaded decoded)
          have notNull : literal.isNull = false := by cases chain <;> rfl
          obtain ⟨shown, shownLoads, chainLoaded⟩ := Declared.chain_loaded chain recordLoads
          obtain ⟨depth, fits⟩ := chainLoaded.fits (checked notNull)
          have looked := Declared.findField_agree shownLoads name
          rw [found] at looked
          cases fits with
          | decoded foundLoaded typed _ =>
              rw [foundLoaded] at looked
              cases looked with
              | some agrees =>
                  obtain ⟨_, _, untyped⟩ := Declared.holdsRecord_loaded agrees inside
                  exact absurd typed (untyped.not_typed _)
          | checked _ _ taken => exact checkLiteral_listed taken

theorem RecordLiteral.exists_whole {path : String} (literal : Json) {resolved : Schema.Resolved Schema}
    (known : resolve (some schema) path = .ok resolved) {record : Schema} (holds : resolved.field.HoldsRecord record) :
    ∃ list, RecordLiteral document path literal list literal := by
  have alike := Declared.resolve_alike loads path
  rw [known] at alike
  cases declared : resolve (some (Declared.mk document false)) path with
  | error error =>
      rw [declared] at alike
      cases alike
  | ok other =>
      rw [declared] at alike
      cases alike with
      | ok same =>
          have behind := same.2.nested
          rw [holds.nested] at behind
          cases nested : other.field.nested with
          | none =>
              rw [nested] at behind
              cases behind
          | some inner => exact ⟨inner.list, .whole declared ⟨same.2.type.trans holds.untyped, nested⟩⟩

end Loaded

/-- In an expression that is compiled against a loaded schema, every value in place of a record is null, an object, or a
list made up of these, and all have the documented shapes just if each list is one of objects and stands for a field
that is declared to hold one. -/
theorem literals_documented_iff {text : String} {document : RecordDocument} {schema : Schema}
    (parsed : RecordDocument.parse text = .ok document) (loaded : Schema.load text = .ok schema) {expr : Expr Schema}
    (against : expr.schema = some schema) {backend : Backend} {compiled : Compiled}
    (accepted : expr.compile backend = .ok compiled) {path : String} {literal : Json}
    (casts : expr.Casts path literal) :
    (∀ resolved record, resolve (some schema) path = .ok resolved → resolved.field.HoldsRecord record →
      ∃ list, RecordLiteral document path literal list literal) ∧
    (∀ list value, RecordLiteral document path literal list value → value.Listed) ∧
    ((∀ list value, RecordLiteral document path literal list value → value.Documented list) ↔
      ∀ list items, RecordLiteral document path literal list (.array items) →
        list = true ∧ ∀ item ∈ items, item.isObject = true) := by
  have loads : (Declared.mk document false).Loads schema := (Schema.load_ok_iff parsed).mp loaded
  obtain ⟨resolved, bound, known, decoded⟩ := casts.decoded accepted
  rw [against] at known
  have listed : ∀ list value, RecordLiteral document path literal list value → value.Listed :=
    fun _ _ place => place.listed loads known decoded
  refine ⟨fun _ _ other holds => RecordLiteral.exists_whole loads literal other holds, listed, ?_, ?_⟩
  · intro documented list items place
    exact (listed _ _ place).documented_iff.mp (documented _ _ place) items rfl
  · intro lists list value place
    refine (listed _ _ place).documented_iff.mpr fun items same => ?_
    subst same
    exact lists list items place

/-- What is declared of the field at the end of a path, if literals of it are those of a record. -/
def declaredList? (document : RecordDocument) (path : String) : Option Bool :=
  match resolve (some (Declared.mk document false)) path with
  | .ok resolved => if resolved.field.type.isNone then resolved.field.nested.map (·.list) else none
  | .error _ => none

theorem recordLiteral_of_declaredList {document : RecordDocument} {path : String} {list : Bool}
    (declared : declaredList? document path = some list) (literal : Json) :
    RecordLiteral document path literal list literal := by
  unfold declaredList? at declared
  split at declared
  next resolved known =>
    split at declared
    next untyped =>
      obtain ⟨record, nested, rfl⟩ := Option.map_eq_some_iff.mp declared
      exact .whole known ⟨Option.isNone_iff_eq_none.mp untyped, nested⟩
    next => cases declared
  next => cases declared

theorem declaredList_of_holdsRecord {document : RecordDocument} {path : String} {resolved : Schema.Resolved Declared}
    (known : resolve (some (Declared.mk document false)) path = .ok resolved) {record : Declared}
    (holds : resolved.field.HoldsRecord record) : declaredList? document path = some record.list := by
  unfold declaredList?
  rw [known]
  simp [holds.untyped, holds.nested]

/-- Orders of a buyer, with a list of items. -/
def shopText : String :=
  "\x7b\"name\":\"Order\",\"fields\":[" ++
    "\x7b\"name\":\"buyer\",\"column\":\"b\",\"record\":\x7b\"name\":\"Buyer\"\x7d\x7d," ++
    "\x7b\"name\":\"items\",\"column\":\"i\",\"array\":true,\"record\":\x7b\"name\":\"Item\"," ++
    "\"fields\":[\x7b\"name\":\"name\",\"column\":\"n\",\"type\":\"text\"\x7d]\x7d\x7d]\x7d"

def castExpr (schema : Schema) (path : String) (literal : Json) : Expr Schema where
  source := some (.value (.array [.string path, literal]))
  schema := some schema

theorem casts_castExpr (schema : Schema) {path : String} (unknown : Operator.ofName? path = none) (literal : Json) :
    (castExpr schema path literal).Casts path literal :=
  .of rfl List.mem_cons_self unknown

theorem parse_shopText : ∃ document, RecordDocument.parse shopText = .ok document ∧
    declaredList? document "buyer" = some false ∧ declaredList? document "items" = some true := by
  have declared : (RecordDocument.parse shopText).map
      (fun document => (declaredList? document "buyer", declaredList? document "items")) =
        .ok (some false, some true) := by
    decide +kernel
  obtain ⟨document, parsed, flags⟩ := ok_of_map declared
  exact ⟨document, parsed, Prod.mk.inj flags⟩

/-- A list of two items, which is what the field is declared to hold. -/
def orderedItems : Json :=
  .array [.object [("name", .string "Pen")], .object []]

/-- A list where a single buyer is declared. -/
def listedBuyers : Json :=
  .array [.object []]

theorem load_shopText : ∃ schema, Schema.load shopText = .ok schema ∧
    (∃ compiled, (castExpr schema "items" orderedItems).compile .postgres = .ok compiled) ∧
    ∃ compiled, (castExpr schema "buyer" listedBuyers).compile .postgres = .ok compiled := by
  have texts : (Schema.load shopText).map (fun schema =>
      (((castExpr schema "items" orderedItems).compile .postgres).toOption.map (·.text),
        ((castExpr schema "buyer" listedBuyers).compile .postgres).toOption.map (·.text))) =
          .ok (some "$1", some "$1") := by
    decide +kernel
  obtain ⟨schema, loaded, both⟩ := ok_of_map texts
  obtain ⟨first, second⟩ := Prod.mk.inj both
  obtain ⟨compiledItems, acceptedItems, _⟩ := compile_of_text first
  obtain ⟨compiledBuyers, acceptedBuyers, _⟩ := compile_of_text second
  exact ⟨schema, loaded, ⟨compiledItems, acceptedItems⟩, ⟨compiledBuyers, acceptedBuyers⟩⟩

theorem literals_documented_iff_items :
    ∃ document schema compiled, RecordDocument.parse shopText = .ok document ∧ Schema.load shopText = .ok schema ∧
      (castExpr schema "items" orderedItems).compile .postgres = .ok compiled ∧
      RecordLiteral document "items" orderedItems true orderedItems ∧
      ∀ list value, RecordLiteral document "items" orderedItems list value → value.Documented list := by
  obtain ⟨document, parsed, _, declared⟩ := parse_shopText
  obtain ⟨schema, loaded, ⟨compiled, accepted⟩, _⟩ := load_shopText
  have casts : (castExpr schema "items" orderedItems).Casts "items" orderedItems :=
    casts_castExpr schema (by decide +kernel) orderedItems
  obtain ⟨_, _, documented⟩ := literals_documented_iff parsed loaded rfl accepted casts
  refine ⟨document, schema, compiled, parsed, loaded, accepted, recordLiteral_of_declaredList declared orderedItems, ?_⟩
  refine documented.mpr fun list held place => ?_
  generalize whole : Json.array held = value at place
  cases place with
  | whole known holds =>
      have same := declaredList_of_holdsRecord known holds
      rw [declared] at same
      cases whole
      exact ⟨(Option.some.inj same).symm, by decide⟩
  | member _ _ chain =>
      -- The only member of the items is a text.
      subst whole
      unfold orderedItems at chain
      cases chain with
      | item among within =>
          rcases List.mem_cons.mp among with rfl | other
          · cases within with
            | member named => simp at named
            | inside named _ _ deeper =>
                obtain ⟨_, rfl⟩ := Prod.mk.inj (List.mem_singleton.mp named)
                cases deeper
          · obtain rfl := List.mem_singleton.mp other
            cases within with
            | member named => cases named
            | inside named => cases named

theorem compile_undocumented_list :
    ¬ ∀ (text : String) (document : RecordDocument) (schema : Schema) (expr : Expr Schema) (backend : Backend)
        (compiled : Compiled) (path : String) (literal : Json),
      RecordDocument.parse text = .ok document → Schema.load text = .ok schema → expr.schema = some schema →
      expr.compile backend = .ok compiled → expr.Casts path literal →
      ∀ list value, RecordLiteral document path literal list value → value.Documented list := by
  intro documented
  obtain ⟨document, parsed, declared, _⟩ := parse_shopText
  obtain ⟨schema, loaded, _, compiled, accepted⟩ := load_shopText
  have casts : (castExpr schema "buyer" listedBuyers).Casts "buyer" listedBuyers :=
    casts_castExpr schema (by decide +kernel) listedBuyers
  have shape := documented shopText document schema _ .postgres compiled "buyer" listedBuyers parsed loaded rfl accepted
    casts false listedBuyers (recordLiteral_of_declaredList declared listedBuyers)
  cases shape with
  | objects list _ => cases list

end Expr

end FilterSql
