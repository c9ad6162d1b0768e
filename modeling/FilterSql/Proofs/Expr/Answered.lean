import FilterSql.Proofs.Expr.Compile
import FilterSql.Proofs.Expr.Faults
import FilterSql.Proofs.Schema.Validation

/-!
# Casts into loaded schemas

A schema that is loaded answers every cast: a literal is judged by a type or by a record, wherever in the schema the
field stands that it is for. No expression is rejected because a field has no literals.
-/

set_option autoImplicit false

namespace FilterSql.Expr

open Schema (Answerable DecodeError Invalid Reachable RecordDocument RecordType WithoutLiterals resolve)

/-! ## Where a rejected literal comes from -/

/-- The rejections of a source that no value is read from. -/
inductive Unread : CompileError → Prop where
  | tooLarge {size limit : Nat} : Unread (.inputTooLarge size limit)
  | empty : Unread .emptyExpression
  | tooDeep {limit : Nat} : Unread (.tooDeep limit)
  | notJson {error : Json.ParseError} : Unread (.notJson error)

theorem readText_unread {isBoolean : Bool} {limits : Limits} {text : String} {error : CompileError}
    (rejected : read.readText isBoolean limits text = .error error) : Unread error := by
  unfold read.readText at rejected
  split at rejected
  · cases rejected
    exact .tooLarge
  · split at rejected
    · split at rejected
      · cases rejected
      · cases rejected
        exact .empty
    · unfold checkNesting at rejected
      split at rejected
      · cases parsed : Json.parse text with
        | error reason =>
            rw [parsed] at rejected
            cases rejected
            exact .notJson
        | ok value =>
            rw [parsed] at rejected
            cases rejected
      · cases rejected
        exact .tooDeep

theorem read_unread {source : Option Source} {isBoolean : Bool} {limits : Limits} {error : CompileError}
    (rejected : read source isBoolean limits = .error error) : Unread error := by
  unfold read at rejected
  split at rejected
  · cases rejected
  · exact readText_unread rejected
  · exact readText_unread rejected

variable {ρ : Type} [RecordType ρ]

variable {field typeName : String} {reason : DecodeError}

theorem decode_of_castValue {schema : Option ρ} {name : String} {arguments : List Json}
    (rejected : castValue schema name arguments = .error (.castDecodeFailure field typeName reason)) :
    ∃ resolved payload, resolve schema name = .ok resolved ∧ resolved.field.decode payload = .error reason := by
  have casting := castValue_casting schema name arguments
  rw [rejected] at casting
  cases casting with
  | unresolved known => cases Schema.resolve_resolving schema name _ known
  | refused known refused => exact ⟨_, _, known, refused⟩

theorem decode_of_fault {schema : Option ρ} {limit : Nat} {node : Node}
    (fault : fault? schema limit node = some (.castDecodeFailure field typeName reason)) :
    ∃ name resolved payload, resolve schema name = .ok resolved ∧ resolved.field.decode payload = .error reason := by
  obtain ⟨depth, value⟩ := node
  cases value with
  | null | bool value | number value | object members => cases fault
  | string name => cases Schema.resolve_resolving schema name _ (rejection_eq_some.mp fault)
  | array items =>
      by_cases deep : limit < depth + 1
      · simp [fault?, listFaults, deep] at fault
      · cases items using list_cases with
        | empty => simp [fault?, listFaults, deep, emptyFault?] at fault
        | operation name operator operands known =>
            rw [fault_operation deep known] at fault
            split at fault <;> cases fault
        | cast name arguments unknown =>
            rw [fault_cast deep unknown] at fault
            exact ⟨name, decode_of_castValue (rejection_eq_some.mp fault)⟩
        | other head rest notString =>
            rw [fault_head deep rest notString] at fault
            cases fault

/-- A literal for which an expression is rejected is one that a field refuses, which a path of the schema leads to. -/
theorem decode_of_compile {expr : Expr ρ} {backend : Backend}
    (rejected : expr.compile backend = .error (.castDecodeFailure field typeName reason)) :
    ∃ name resolved payload,
      resolve expr.schema name = .ok resolved ∧ resolved.field.decode payload = .error reason := by
  have added := compile_error_iff.mp rejected
  cases taken : read expr.source expr.isBoolean expr.limits with
  | error error =>
      rw [fragment_of_read_error taken] at added
      cases added
      cases read_unread taken
  | ok node? =>
      cases node? with
      | none =>
          unfold fragment at added
          rw [taken] at added
          cases added
      | some node =>
          rw [fragment_of_read taken] at added
          cases found : skeleton expr.schema expr.limits.depthLimit 0 node with
          | ok accepted =>
              rw [found] at added
              cases added
          | error error =>
              rw [found] at added
              cases added
              obtain ⟨part, _, fault⟩ := exists_fault_of_rejected found
              exact decode_of_fault fault

/-! ## Loaded schemas -/

theorem not_withoutLiterals {schema : Schema} (answerable : Answerable schema) {expr : Expr Schema}
    (against : expr.schema = some schema) {backend : Backend}
    (rejected : expr.compile backend = .error (.castDecodeFailure field typeName reason)) :
    ¬ WithoutLiterals reason := by
  obtain ⟨name, resolved, payload, known, refused⟩ := decode_of_compile rejected
  rw [against] at known
  exact answerable.decode_judged (Schema.reachable_of_resolve known) payload reason refused

/-- A document is loaded iff it makes sense, and is else rejected for the first of its flaws. Every field of what is
loaded has one content, and no expression comes to a field without literals. -/
theorem load_document {text : String} {document : RecordDocument} (parsed : RecordDocument.parse text = .ok document) :
    ((∃ schema, Schema.load text = .ok schema) ↔ document.WellFormed) ∧
    (∀ error, Schema.load text = .error error ↔
      ∃ invalid, document.flaws.head? = some invalid ∧ error = .invalid invalid) ∧
    (∀ invalid, invalid ∈ document.flaws ↔ document.Violates invalid) ∧
    ∀ schema, Schema.load text = .ok schema →
      (∀ field, Reachable schema field → field.OneContent) ∧
      ∀ (expr : Expr Schema) (backend : Backend) (field typeName : String) (reason : DecodeError),
        expr.schema = some schema → expr.compile backend = .error (.castDecodeFailure field typeName reason) →
        ¬ WithoutLiterals reason := by
  refine ⟨?_, fun _ => Schema.load_error_iff parsed, fun _ => Schema.mem_flaws_iff, ?_⟩
  · rw [← Schema.validate_ok_iff]
    exact exists_congr fun schema => Schema.load_ok_iff parsed
  · intro schema loaded
    have accepted := (Schema.load_ok_iff parsed).mp loaded
    constructor
    · intro field reached
      exact Schema.oneContent_of_validate accepted reached
    · intro expr backend field typeName reason against rejected
      exact not_withoutLiterals (Schema.answerable_of_validate accepted) against rejected

/-- Orders, which have the fields of a record on who has made them as their own. -/
def orderText : String :=
  "\x7b\"name\":\"Order\",\"fields\":[" ++
    "\x7b\"name\":\"id\",\"column\":\"id\",\"type\":\"uuid\"\x7d," ++
    "\x7b\"embed\":true,\"record\":\x7b\"name\":\"Audit\"," ++
    "\"fields\":[\x7b\"name\":\"id\",\"column\":\"by\",\"type\":\"text\"\x7d]\x7d\x7d]\x7d"

/-- A name that is given to a second field, which holds a field without a name. -/
def unnamedText : String :=
  "\x7b\"name\":\"Order\",\"fields\":[" ++
    "\x7b\"name\":\"id\",\"column\":\"id\",\"type\":\"uuid\"\x7d," ++
    "\x7b\"name\":\"id\",\"column\":\"audit\",\"record\":\x7b\"name\":\"Audit\"," ++
    "\"fields\":[\x7b\"column\":\"by\",\"type\":\"text\"\x7d]\x7d\x7d]\x7d"

theorem load_document_order :
    (∃ document schema, RecordDocument.parse orderText = .ok document ∧ document.WellFormed ∧
      Schema.load orderText = .ok schema ∧ schema.name = "Order" ∧ ∀ field, Reachable schema field → field.OneContent) ∧
    ∃ document, RecordDocument.parse unnamedText = .ok document ∧ ¬ document.WellFormed ∧
      document.flaws.head? = some ⟨"Audit", "", .unnamed⟩ := by
  constructor
  · have taken : (Schema.load orderText).map Schema.name = .ok "Order" := by decide +kernel
    obtain ⟨schema, loaded, named⟩ := ok_of_map taken
    obtain ⟨document, parsed⟩ := Schema.parse_of_load (by simp [loaded] : ∀ error, Schema.load orderText ≠ _)
    obtain ⟨accepted, _, _, consequences⟩ := load_document parsed
    exact ⟨document, schema, parsed, accepted.mp ⟨schema, loaded⟩, loaded, named, (consequences schema loaded).1⟩
  · have flawed : (Schema.load unnamedText).map Schema.name = .error (.invalid ⟨"Audit", "", .unnamed⟩) := by
      decide +kernel
    have loaded := error_of_map flawed
    obtain ⟨document, parsed⟩ := Schema.parse_of_load (by simp [loaded] : ∀ error, Schema.load unnamedText ≠ _)
    obtain ⟨accepted, reported, _, _⟩ := load_document parsed
    refine ⟨document, parsed, fun wellFormed => ?_, ?_⟩
    · obtain ⟨schema, other⟩ := accepted.mpr wellFormed
      rw [loaded] at other
      cases other
    · obtain ⟨invalid, first, same⟩ := (reported _).mp loaded
      rw [first, ← Schema.LoadError.invalid.inj same]

end FilterSql.Expr
