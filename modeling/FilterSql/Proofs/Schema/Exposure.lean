import FilterSql.Proofs.Schema.Descent
import FilterSql.Schema.RecordLiteral

/-!
# Members of record literals

The members of a literal that is cast to a record are those that paths lead to. Where an accepted literal has a member,
however deep and in however many lists, the path of the names around it is known, and the field at its end takes the
value of the member. A literal with a member that no path leads to, or with a value that its field does not take, is
rejected.
-/

set_option autoImplicit false

namespace FilterSql.Schema

variable {ρ : Type}

/-- Literals of the field are those of the record behind it. -/
structure Field.HoldsRecord (field : Field ρ) (inner : ρ) : Prop where
  untyped : field.type = none
  nested : field.nested = some inner

theorem Field.HoldsRecord.not_typed {field : Field ρ} {inner : ρ} (holds : field.HoldsRecord inner) (type : FieldType) :
    field.type ≠ some type := by
  rw [holds.untyped]
  exact nofun

variable [RecordType ρ]

/-- A literal of a record has a value under a chain of names. Every name but the last is that of a field that holds a
record, and the last one is a member of a literal of `holder`. Lists of literals are passed through. -/
inductive Chain : (record : ρ) → Json → (names : List String) → (holder : ρ) → (name : String) → Json → Prop where
  | item {record holder : ρ} {items : List Json} {item value : Json} {names : List String} {name : String} :
      item ∈ items → Chain record item names holder name value → Chain record (.array items) names holder name value
  | member {record : ρ} {members : List (String × Json)} {name : String} {value : Json} :
      (name, value) ∈ members → Chain record (.object members) [] record name value
  | inside {record inner holder : ρ} {members : List (String × Json)} {key name : String} {literal value : Json}
      {field : Field ρ} {names : List String} :
      (key, literal) ∈ members → findField record key = some field → field.HoldsRecord inner →
      Chain inner literal names holder name value → Chain record (.object members) (key :: names) holder name value

/-! ## What is checked of a member -/

/-- A member of a literal that stands `depth` lists and records deep is shown by the record, which takes its value. -/
inductive MemberFits (record : ρ) (depth : Nat) (name : String) (value : Json) : Prop where
  | decoded {field : Field ρ} {type : FieldType} {bound : Sql.Value} :
      findField record name = some field → field.type = some type → type.decode value = .ok bound →
      MemberFits record depth name value
  | checked {field : Field ρ} {inner : ρ} :
      findField record name = some field → field.HoldsRecord inner → checkLiteral inner (depth + 1) value = .ok () →
      MemberFits record depth name value

/-- The member of a literal is not shown by the record, or its value is refused by the type of its field. -/
inductive MemberRefused (record : ρ) (name : String) (value : Json) : Prop where
  | unknown : findField record name = none → MemberRefused record name value
  | undecoded {field : Field ρ} {type : FieldType} {error : DecodeError} :
      findField record name = some field → field.type = some type → type.decode value = .error error →
      MemberRefused record name value

theorem MemberFits.not_refused {record : ρ} {depth : Nat} {name : String} {value : Json}
    (fits : MemberFits record depth name value) : ¬ MemberRefused record name value := by
  intro refused
  cases fits with
  | decoded found typed taken =>
      cases refused with
      | unknown missing =>
          rw [missing] at found
          cases found
      | undecoded again typedAgain refusal =>
          obtain rfl := Option.some.inj (again.symm.trans found)
          obtain rfl := Option.some.inj (typedAgain.symm.trans typed)
          rw [taken] at refusal
          cases refusal
  | checked found holds _ =>
      cases refused with
      | unknown missing =>
          rw [missing] at found
          cases found
      | undecoded again typed _ =>
          obtain rfl := Option.some.inj (again.symm.trans found)
          exact holds.not_typed _ typed

theorem checkItems_ok {record : ρ} {depth : Nat} {items : List Json}
    (accepted : checkItems record depth items = .ok ()) :
    ∀ item ∈ items, checkLiteral record depth item = .ok () := by
  induction items with
  | nil => exact List.forall_mem_nil _
  | cons item rest ih =>
      unfold checkItems at accepted
      obtain ⟨_, first, others⟩ := ok_of_bind accepted
      exact List.forall_mem_cons.mpr ⟨first, ih others⟩

theorem checkMembers_ok {record : ρ} {depth : Nat} {members : List (String × Json)}
    (accepted : checkMembers record depth members = .ok ()) :
    ∀ member ∈ members, MemberFits record depth member.1 member.2 := by
  induction members with
  | nil => exact List.forall_mem_nil _
  | cons member rest ih =>
      obtain ⟨name, value⟩ := member
      unfold checkMembers at accepted
      cases found : findField record name with
      | none => simp [found] at accepted
      | some field =>
          simp only [found] at accepted
          cases typed : field.type with
          | some type =>
              simp only [typed] at accepted
              obtain ⟨_, taken, others⟩ := ok_of_bind accepted
              exact List.forall_mem_cons.mpr ⟨.decoded found typed taken, ih others⟩
          | none =>
              simp only [typed] at accepted
              cases behind : field.nested with
              | none => simp [behind] at accepted
              | some inner =>
                  simp only [behind] at accepted
                  obtain ⟨_, checked, others⟩ := ok_of_bind accepted
                  exact List.forall_mem_cons.mpr ⟨.checked found ⟨typed, behind⟩ checked, ih others⟩

theorem checkLiteral_array_ok {record : ρ} {depth : Nat} {items : List Json}
    (accepted : checkLiteral record depth (.array items) = .ok ()) : checkItems record (depth + 1) items = .ok () := by
  unfold checkLiteral at accepted
  split at accepted
  · cases accepted
  · exact accepted

theorem checkLiteral_object_ok {record : ρ} {depth : Nat} {members : List (String × Json)}
    (accepted : checkLiteral record depth (.object members) = .ok ()) : checkMembers record depth members = .ok () := by
  unfold checkLiteral at accepted
  split at accepted
  · cases accepted
  · exact accepted

theorem Chain.fits {record holder : ρ} {literal value : Json} {names : List String} {name : String}
    (chain : Chain record literal names holder name value) {depth : Nat}
    (accepted : checkLiteral record depth literal = .ok ()) : ∃ inner, MemberFits holder inner name value := by
  induction chain generalizing depth with
  | item member _ ih => exact ih (checkItems_ok (checkLiteral_array_ok accepted) _ member)
  | member member => exact ⟨depth, checkMembers_ok (checkLiteral_object_ok accepted) _ member⟩
  | inside member found holds _ ih =>
      cases checkMembers_ok (checkLiteral_object_ok accepted) _ member with
      | decoded again typed _ =>
          obtain rfl := Option.some.inj (again.symm.trans found)
          exact absurd typed (holds.not_typed _)
      | checked again holdsAgain checked =>
          obtain rfl := Option.some.inj (again.symm.trans found)
          obtain rfl := Option.some.inj (holdsAgain.nested.symm.trans holds.nested)
          exact ih checked

/-! ## Where the names of a member lead -/

/-- The names lead to a field, or to one on the way that is not stored. -/
inductive LeadsTo (path : String) (record : ρ) (names : List String) (field : Field ρ) : Prop where
  | field {columns : List String} : descend path record names = .ok (columns, field) → LeadsTo path record names field
  | unstored {name holder : String} :
      descend path record names = .error (.noStorageMapping name holder path) → LeadsTo path record names field

theorem storedField_cases (path : String) {record : ρ} {name : String} {field : Field ρ}
    (found : findField record name = some field) :
    storedField path record name = .error (.noStorageMapping name (typeName record) path) ∨
      storedField path record name = .ok field := by
  unfold storedField
  rw [found]
  dsimp only
  split
  · exact .inl rfl
  · exact .inr rfl

theorem Chain.leads {record holder : ρ} {literal value : Json} {names : List String} {name : String}
    (chain : Chain record literal names holder name value) {field : Field ρ}
    (found : findField holder name = some field)
    (path : String) : LeadsTo path record (names ++ [name]) field := by
  induction chain with
  | item _ _ ih => exact ih found
  | @member record members name value member =>
      rcases storedField_cases path found with unstored | stored
      · have failed : descend path record [name] = .error (.noStorageMapping name (typeName record) path) := by
          rw [descend_cons, unstored]
          rfl
        exact .unstored failed
      · have led : descend path record [name] = .ok ([field.column], field) := by
          rw [descend_cons, stored]
          rfl
        exact .field led
  | @inside record inner holder members key name literal value outer names member foundKey holds _ ih =>
      rw [List.cons_append]
      rcases storedField_cases path foundKey with unstored | stored
      · have failed : descend path record (key :: (names ++ [name])) =
            .error (.noStorageMapping key (typeName record) path) := by
          rw [descend_cons, unstored]
          rfl
        exact .unstored failed
      · obtain ⟨first, rest, shape⟩ : ∃ first rest, names ++ [name] = first :: rest :=
          List.exists_cons_of_ne_nil (by simp)
        have along : descend path record (key :: (names ++ [name])) = (do
            let further ← descend path inner (names ++ [name])
            .ok (outer.column :: further.1, further.2)) := by
          rw [descend_cons, stored, shape, ← descendFrom_nested path holds.nested, ← followSegments_cons]
          rfl
        cases ih found with
        | field led => exact .field (along.trans (by rw [led]; rfl))
        | unstored failed => exact .unstored (along.trans (by rw [failed]; rfl))

/-- The path of a member with this value is known, and its field takes the value. -/
structure Exposed (record : ρ) (path : String) (value : Json) : Prop where
  known : ∀ field holder, resolve (some record) path ≠ .error (.unknownField field holder)
  taken : ∀ resolved type, resolve (some record) path = .ok resolved → resolved.field.type = some type →
    ∃ bound, type.decode value = .ok bound

def IsWord (name : String) : Prop :=
  ∀ c ∈ name.toList, isWordChar c = true

instance (name : String) : Decidable (IsWord name) :=
  decidable_of_iff (name.toList.all isWordChar = true) List.all_eq_true

theorem unbroken_of_isWord {name : String} (word : IsWord name) : '.' ∉ name.toList := by
  intro member
  exact absurd (word '.' member) (by decide)

theorem Chain.exposed {record holder : ρ} {literal value : Json} {names : List String} {name : String} {depth : Nat}
    (chain : Chain record literal names holder name value) (words : ∀ each ∈ names ++ [name], IsWord each)
    (fits : MemberFits holder depth name value) : Exposed record (".".intercalate (names ++ [name])) value := by
  have segments : pathSegments (".".intercalate (names ++ [name])) = names ++ [name] :=
    pathSegments_intercalate (by simp) fun each member => unbroken_of_isWord (words each member)
  obtain ⟨field, found, taken⟩ : ∃ field, findField holder name = some field ∧
      ∀ type, field.type = some type → ∃ bound, type.decode value = .ok bound := by
    cases fits with
    | @decoded field type bound found typed decoded =>
        refine ⟨field, found, fun other typedAgain => ⟨bound, ?_⟩⟩
        obtain rfl := Option.some.inj (typedAgain.symm.trans typed)
        exact decoded
    | checked found holds _ =>
        exact ⟨_, found, fun type typed => absurd typed (holds.not_typed type)⟩
  have leads := chain.leads found (".".intercalate (names ++ [name]))
  generalize ".".intercalate (names ++ [name]) = path at segments leads ⊢
  -- A name without characters makes no path, and such a path is rejected for its form.
  by_cases dotted : isDottedPath path = true
  · constructor
    · intro other title unknown
      rw [resolve_lost_iff record dotted .unknown, segments] at unknown
      cases leads with
      | field led =>
          rw [led] at unknown
          cases unknown
      | unstored failed =>
          rw [failed] at unknown
          cases unknown
    · intro resolved type accepted typed
      rw [resolve_ok_iff record dotted, segments] at accepted
      cases leads with
      | field led =>
          rw [led] at accepted
          obtain ⟨_, same⟩ := Prod.mk.inj (Except.ok.inj accepted)
          exact taken type (same ▸ typed)
      | unstored failed =>
          rw [failed] at accepted
          cases accepted
  · have rejected : resolve (some record) path = .error (.invalidPath path) := by
      unfold resolve
      simp [dotted]
    constructor
    · intro other title unknown
      rw [rejected] at unknown
      cases unknown
    · intro resolved type accepted
      rw [rejected] at accepted
      cases accepted

/-! ## Record literals -/

theorem checkLiteral_of_decodeRecord {record : ρ} {literal : Json} (notNull : literal.isNull = false)
    {bound : Sql.Value}
    (accepted : decodeRecord record literal = .ok bound) :
    bound = .json literal ∧ checkLiteral record 0 literal = .ok () := by
  unfold decodeRecord at accepted
  rw [notNull, if_neg Bool.false_ne_true] at accepted
  obtain ⟨_, checked, same⟩ := ok_of_bind accepted
  exact ⟨(Except.ok.inj same).symm, checked⟩

/-- Literals of records and paths show the same fields. An accepted literal is bound as it is, and each of its members
is one that a path could name and whose field takes its value; a literal with any other member is rejected. -/
theorem decodeRecord_exposed (record : ρ) {literal : Json} (notNull : literal.isNull = false) :
    (∀ bound, decodeRecord record literal = .ok bound →
      bound = .json literal ∧
      ∀ names holder name value, Chain record literal names holder name value →
        (∀ each ∈ names ++ [name], IsWord each) → Exposed record (".".intercalate (names ++ [name])) value) ∧
    ∀ names holder name value, Chain record literal names holder name value → MemberRefused holder name value →
      ∃ error, decodeRecord record literal = .error error := by
  constructor
  · intro bound accepted
    obtain ⟨same, checked⟩ := checkLiteral_of_decodeRecord notNull accepted
    refine ⟨same, fun names holder name value chain words => ?_⟩
    obtain ⟨depth, fits⟩ := chain.fits checked
    exact chain.exposed words fits
  · intro names holder name value chain refused
    cases accepted : decodeRecord record literal with
    | error error => exact ⟨error, rfl⟩
    | ok bound =>
        obtain ⟨_, checked⟩ := checkLiteral_of_decodeRecord notNull accepted
        obtain ⟨depth, fits⟩ := chain.fits checked
        exact absurd refused fits.not_refused

def customer : Schema :=
  .mk "Customer" [.scalar "name" "full_name" .text false false]

/-- Orders with their customer, and with the fields of a record on who made them. -/
def order : Schema :=
  .mk "Order" [.record "customer" "buyer" false customer,
    .record "" "" true (.mk "Audit" [.scalar "createdBy" "created_by" .text true false])]

/-- Two lists around the name of a customer. -/
def orderOf (members : List (String × Json)) : Json :=
  .array [.null, .object [("createdBy", .null), ("customer", .array [.object members])]]

theorem chain_orderOf {members : List (String × Json)} {name : String} {value : Json}
    (member : (name, value) ∈ members) :
    Chain order (orderOf members) ["customer"] customer name value := by
  refine .item (.tail _ (.head _)) (.inside (.tail _ (.head _)) rfl ⟨rfl, rfl⟩ ?_)
  exact .item (.head _) (.member member)

theorem decodeRecord_exposed_customer :
    (orderOf [("name", .string "Ann")]).isNull = false ∧
      decodeRecord order (orderOf [("name", .string "Ann")]) = .ok (.json (orderOf [("name", .string "Ann")])) ∧
      Exposed order "customer.name" (.string "Ann") ∧
      ∃ error, decodeRecord order (orderOf [("name", .string "Ann"), ("age", .null)]) = .error error := by
  have accepted : decodeRecord order (orderOf [("name", .string "Ann")]) =
      .ok (.json (orderOf [("name", .string "Ann")])) := rfl
  refine ⟨rfl, accepted, ?_, ?_⟩
  · obtain ⟨_, exposed⟩ := (decodeRecord_exposed order rfl).1 _ accepted
    exact exposed _ _ _ _ (chain_orderOf (.head _)) (by decide +kernel)
  · exact (decodeRecord_exposed order rfl).2 _ _ _ _ (chain_orderOf (.tail _ (.head _))) (.unknown rfl)

end FilterSql.Schema
