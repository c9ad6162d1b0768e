import FilterSql.Proofs.Json.Scalars

/-!
# Values that are read

Whatever part of a text is read as a value, or is read over as one, is a spelling of some tree. So are the members of an
object that is read, each behind its key, and what is made of them can be told from that.
-/

set_option autoImplicit false

namespace FilterSql.Json

variable {text middle rest : List Char}

/-! ## Blanks and separators -/

theorem Blank.trans (blank : Blank text middle) (behind : Blank middle rest) : Blank text rest := by
  induction blank with
  | none _ => exact behind
  | one isBlank _ ih => exact .one isBlank (ih behind)

theorem Separated.trans {first : Bool} (separated : Separated first text middle) (blank : Blank middle rest) :
    Separated first text rest := by
  cases separated with
  | start before => exact .start (before.trans blank)
  | comma before after => exact .comma before (after.trans blank)

theorem blank_skipBlank (text : List Char) : Blank text (skipBlank text) := by
  induction text with
  | nil => exact .none []
  | cons c text ih =>
      cases blank : isBlank c with
      | true =>
          rw [skipBlank, List.dropWhile_cons_of_pos blank]
          exact .one blank ih
      | false =>
          rw [skipBlank, List.dropWhile_cons_of_neg (by simp [blank])]
          exact .none _

theorem blank_of_skipBlank (skipped : skipBlank text = rest) : Blank text rest :=
  skipped ▸ blank_skipBlank text

theorem blank_of_readColon (read : readColon text = .ok rest) : Blank text (':' :: rest) := by
  unfold readColon at read
  split at read
  next => cases read
  next c after shape =>
    split at read
    next colon =>
      cases read
      rw [← colon]
      exact blank_of_skipBlank shape
    next => cases read

theorem separated_of_nextItem {first found : Bool} (next : nextItem first text = .ok (found, rest)) :
    if found then Separated first text rest else ∃ after, rest = ']' :: after ∧ Blank text rest := by
  unfold nextItem at next
  split at next
  next => cases next
  next c after shape =>
    have blank := blank_of_skipBlank shape
    split at next
    next close =>
      cases next
      exact ⟨after, by rw [close], blank⟩
    next =>
      split at next
      next start =>
        cases next
        rw [start]
        exact .start blank
      next later =>
        rw [Bool.not_eq_true] at later
        subst later
        split at next
        next comma =>
          subst comma
          split at next
          next => cases next
          next behind =>
            split at next
            next => cases next
            next =>
              cases next
              exact .comma blank (blank_of_skipBlank behind)
        next => cases next

theorem separated_of_nextMember {first found : Bool} (next : nextMember first text = .ok (found, rest)) :
    if found then Separated first text ('"' :: rest) else ∃ after, rest = '\x7d' :: after ∧ Blank text rest := by
  unfold nextMember at next
  split at next
  next => cases next
  next c after shape =>
    have blank := blank_of_skipBlank shape
    split at next
    next close =>
      cases next
      exact ⟨after, by rw [close], blank⟩
    next =>
      split at next
      next start =>
        split at next
        next quote =>
          cases next
          rw [start, ← quote]
          exact .start blank
        next => cases next
      next later =>
        rw [Bool.not_eq_true] at later
        subst later
        split at next
        next comma =>
          subst comma
          split at next
          next => cases next
          next behind =>
            split at next
            next quote =>
              cases next
              rw [← quote]
              exact .comma blank (blank_of_skipBlank behind)
            next => split at next <;> cases next
        next => cases next

/-! ## Lists and objects -/

/-- The text starts with a spelling of the tree, behind blanks. -/
def Begins (tree : SyntaxTree) (text rest : List Char) : Prop :=
  ∃ start, Blank text start ∧ Spells tree start rest

/-- The text starts with what stands behind the key of a member. -/
def Assigns (tree : SyntaxTree) (text rest : List Char) : Prop :=
  ∃ value, Blank text (':' :: value) ∧ Begins tree value rest

theorem begins_of_skipBlank {tree : SyntaxTree} {c : Char} (skipped : skipBlank text = c :: middle)
    (spelled : Spells tree (c :: middle) rest) : Begins tree text rest :=
  ⟨_, blank_of_skipBlank skipped, spelled⟩

theorem Begins.item {first : Bool} {tree : SyntaxTree} {items : List SyntaxTree} {behind : List Char}
    (begins : Begins tree middle behind) (separated : Separated first text middle)
    (others : SpellsItems false items behind rest) : SpellsItems first (tree :: items) text rest := by
  obtain ⟨start, blank, spelled⟩ := begins
  exact .item (separated.trans blank) spelled others

theorem Assigns.member {first : Bool} {key : List UInt16} {tree : SyntaxTree}
    {members : List (List UInt16 × SyntaxTree)} {name behind : List Char} (assigns : Assigns tree middle behind)
    (separated : Separated first text ('"' :: name)) (named : SpellsUnits key name middle)
    (others : SpellsMembers false members behind rest) : SpellsMembers first ((key, tree) :: members) text rest := by
  obtain ⟨value, colon, start, blank, spelled⟩ := assigns
  exact .member separated named colon blank spelled others

/-- Whatever is read is the spelling of some tree. -/
def Reader.Sound {α : Type} (reader : Reader α) : Prop :=
  ∀ value text rest, reader text = .ok (value, rest) → ∃ tree, Begins tree text rest

theorem items_of_readItems {α : Type} {item : Reader α} (sound : item.Sound) {fuel : Nat} {first : Bool}
    {values : List α} (read : readItems item fuel first text = .ok (values, rest)) :
    ∃ items, SpellsItems first items text rest := by
  induction fuel generalizing first values text with
  | zero => cases read
  | succ fuel ih =>
      unfold readItems at read
      obtain ⟨⟨found, start⟩, next, read⟩ := ok_of_bind read
      have separated := separated_of_nextItem next
      cases found with
      | false =>
          obtain ⟨after, rfl, blank⟩ := separated
          cases read
          exact ⟨[], .close blank⟩
      | true =>
          obtain ⟨⟨value, behind⟩, itemRead, read⟩ := ok_of_bind read
          obtain ⟨⟨values, after⟩, othersRead, read⟩ := ok_of_bind read
          cases read
          obtain ⟨tree, begins⟩ := sound _ _ _ itemRead
          obtain ⟨items, others⟩ := ih othersRead
          exact ⟨tree :: items, begins.item separated others⟩

section Members

variable {σ : Type} {member : σ → String → Reader σ}

/-- Each member is spelled behind its key, and the invariant is kept. -/
def KeepsMembers (member : σ → String → Reader σ) (Invariant : σ → List (List UInt16 × SyntaxTree) → Prop) :
    Prop :=
  ∀ state earlier key text next rest, Invariant state earlier → member state key text = .ok (next, rest) →
    ∃ tree, Assigns tree text rest ∧ Invariant next (earlier ++ [(unitsOfText key, tree)])

variable {Invariant : σ → List (List UInt16 × SyntaxTree) → Prop} (keeps : KeepsMembers member Invariant) {final : σ}

include keeps

theorem members_of_readMembers {fuel : Nat} {first : Bool} {state : σ} {earlier : List (List UInt16 × SyntaxTree)}
    (invariant : Invariant state earlier) (read : readMembers member fuel first state text = .ok (final, rest)) :
    ∃ members, SpellsMembers first members text rest ∧ Invariant final (earlier ++ members) := by
  induction fuel generalizing first state earlier text with
  | zero => cases read
  | succ fuel ih =>
      unfold readMembers at read
      obtain ⟨⟨found, start⟩, next, read⟩ := ok_of_bind read
      have separated := separated_of_nextMember next
      cases found with
      | false =>
          obtain ⟨after, rfl, blank⟩ := separated
          cases read
          exact ⟨[], .close blank, by rwa [List.append_nil]⟩
      | true =>
          obtain ⟨⟨key, behind⟩, keyRead, read⟩ := ok_of_bind read
          obtain ⟨⟨state, after⟩, memberRead, read⟩ := ok_of_bind read
          obtain ⟨tree, assigns, kept⟩ := keeps _ _ _ _ _ _ invariant memberRead
          obtain ⟨members, others, holds⟩ := ih kept read
          rw [List.append_assoc] at holds
          have spelled := assigns.member separated (units_of_readString keyRead) others
          exact ⟨(unitsOfText key, tree) :: members, spelled, holds⟩

/-- The members of an object that is read are spelled, and the invariant that each keeps holds of all. -/
theorem members_of_readObject {start : σ} (invariant : Invariant start [])
    (read : readObject member start text = .ok (final, rest)) :
    ∃ members, SpellsMembers true members text rest ∧ Invariant final members :=
  members_of_readMembers keeps invariant read

end Members

/-! ## Values -/

theorem keepsMembers_readPair {value : Reader Json} (sound : value.Sound) :
    KeepsMembers (readPair value) fun _ _ => True := by
  intro state earlier key text next rest _ read
  unfold readPair at read
  obtain ⟨after, colon, read⟩ := ok_of_bind read
  obtain ⟨⟨_, behind⟩, valueRead, read⟩ := ok_of_bind read
  cases read
  obtain ⟨tree, begins⟩ := sound _ _ _ valueRead
  exact ⟨tree, ⟨after, blank_of_readColon colon, begins⟩, trivial⟩

theorem readValue_sound (depth : Nat) : (readValue depth).Sound := by
  induction depth with
  | zero =>
      intro value text rest read
      unfold readValue at read
      split at read
      next => cases read
      next c after shape =>
        split at read
        next => cases read
        next =>
          split at read
          next => cases read
          next =>
            obtain ⟨tree, spelled⟩ := spells_of_readScalar read
            exact ⟨tree, begins_of_skipBlank shape spelled⟩
  | succ inner ih =>
      intro value text rest read
      unfold readValue at read
      split at read
      next => cases read
      next c after shape =>
        split at read
        next opening =>
          subst opening
          obtain ⟨⟨_, behind⟩, listRead, read⟩ := ok_of_bind read
          cases read
          obtain ⟨items, spelled⟩ := items_of_readItems ih listRead
          exact ⟨_, begins_of_skipBlank shape (.list spelled)⟩
        next =>
          split at read
          next opening =>
            subst opening
            obtain ⟨⟨_, behind⟩, objectRead, read⟩ := ok_of_bind read
            cases read
            obtain ⟨members, spelled, -⟩ := members_of_readObject (keepsMembers_readPair ih) trivial objectRead
            exact ⟨_, begins_of_skipBlank shape (.object spelled)⟩
          next =>
            obtain ⟨tree, spelled⟩ := spells_of_readScalar read
            exact ⟨tree, begins_of_skipBlank shape spelled⟩

/-! ## Values that are read over -/

/-- The text goes on with what closes the brackets that are open, listed from the innermost one. -/
inductive Closes : (opened : Bool) → (brackets : List Bool) → (text rest : List Char) → Prop where
  | done (opened : Bool) (rest : List Char) : Closes opened [] rest rest
  | list {opened : Bool} {brackets : List Bool} {items : List SyntaxTree} {text middle rest : List Char} :
      SpellsItems opened items text middle → Closes false brackets middle rest →
      Closes opened (true :: brackets) text rest
  | object {opened : Bool} {brackets : List Bool} {members : List (List UInt16 × SyntaxTree)}
      {text middle rest : List Char} :
      SpellsMembers opened members text middle → Closes false brackets middle rest →
      Closes opened (false :: brackets) text rest

/-- What each step of reading over a value is about. -/
def Skipped : SkipStep → (brackets : List Bool) → (text rest : List Char) → Prop
  | .value, brackets, text, rest => ∃ tree middle, Begins tree text middle ∧ Closes false brackets middle rest
  | .inside opened, brackets, text, rest => Closes opened brackets text rest

theorem Closes.close {opened isList : Bool} {brackets : List Bool} (closes : Closes false brackets middle rest)
    (blank : Blank text ((if isList then ']' else '\x7d') :: middle)) :
    Closes opened (isList :: brackets) text rest := by
  cases isList with
  | true => exact .list (.close blank) closes
  | false => exact .object (.close blank) closes

/-- What stands before a value inside a bracket: its key, in an object. -/
inductive Due : (isList : Bool) → (text value : List Char) → Prop where
  | item (text : List Char) : Due true text text
  | member {key : List UInt16} {text name colon value : List Char} :
      Blank text ('"' :: name) → SpellsUnits key name colon → Blank colon (':' :: value) → Due false text value

theorem Closes.value {opened isList : Bool} {brackets : List Bool} {start value : List Char}
    (skipped : Skipped .value (isList :: brackets) value rest) (separated : Separated opened text start)
    (due : Due isList start value) : Closes opened (isList :: brackets) text rest := by
  obtain ⟨tree, behind, begins, closes⟩ := skipped
  cases due with
  | item _ =>
      cases closes with
      | list items closes => exact .list (begins.item separated items) closes
  | member blank named colon =>
      cases closes with
      | object members closes =>
          have assigns : Assigns tree _ behind := ⟨value, colon, begins⟩
          exact .object (assigns.member (separated.trans blank) named members) closes

/-- Inside a bracket, either it is closed or a value comes next. -/
theorem skipSteps_inside {fuel : Nat} {opened isList : Bool} {brackets : List Bool}
    (skipped : skipSteps (fuel + 1) (.inside opened) (isList :: brackets) text = .ok rest) :
    (∃ after, Blank text ((if isList then ']' else '}') :: after) ∧
      skipSteps fuel (.inside false) brackets after = .ok rest) ∨
    ∃ start value, Separated opened text start ∧ Due isList start value ∧
      skipSteps fuel .value (isList :: brackets) value = .ok rest := by
  unfold skipSteps at skipped
  extract_lets keyThenValue due at skipped
  have isDue : ∀ {start value : List Char}, due start = .ok value → Due isList start value := by
    intro start value found
    unfold due at found
    cases isList with
    | true =>
        cases found
        exact .item start
    | false =>
        rw [if_neg Bool.false_ne_true] at found
        unfold keyThenValue at found
        split at found
        next => cases found
        next c name shape =>
          split at found
          next quote =>
            subst quote
            obtain ⟨colon, string, found⟩ := ok_of_bind found
            obtain ⟨key, spelled⟩ := exists_units_of_skipString string
            exact .member (blank_of_skipBlank shape) spelled (blank_of_readColon found)
          next => cases found
  clear_value keyThenValue due
  cases shape : skipBlank text with
  | nil =>
      rw [shape] at skipped
      cases skipped
  | cons c after =>
      rw [shape] at skipped
      dsimp only at skipped
      have blank := blank_of_skipBlank shape
      by_cases closing : c = if isList then ']' else '}'
      · rw [if_pos closing] at skipped
        rw [closing] at blank
        exact .inl ⟨after, blank, skipped⟩
      · rw [if_neg closing] at skipped
        right
        split at skipped
        next start =>
          subst start
          obtain ⟨value, found, skipped⟩ := ok_of_bind skipped
          exact ⟨_, value, .start blank, isDue found, skipped⟩
        next later =>
          rw [Bool.not_eq_true] at later
          subst later
          split at skipped
          next comma =>
            subst comma
            obtain ⟨value, found, skipped⟩ := ok_of_bind skipped
            exact ⟨after, value, .comma blank (.none after), isDue found, skipped⟩
          next => cases skipped

/-- By induction on the fuel: each step adds what it reads over to what the steps behind it are about. -/
theorem skipped_of_skipSteps {fuel : Nat} {step : SkipStep} {brackets : List Bool}
    (skipped : skipSteps fuel step brackets text = .ok rest) : Skipped step brackets text rest := by
  induction fuel generalizing step brackets text with
  | zero => cases skipped
  | succ fuel ih =>
      cases step with
      | value =>
          unfold skipSteps at skipped
          split at skipped
          next => cases skipped
          next c after shape =>
            split at skipped
            next opening =>
              subst opening
              cases ih skipped with
              | list items closes => exact ⟨_, _, begins_of_skipBlank shape (.list items), closes⟩
            next =>
              split at skipped
              next opening =>
                subst opening
                cases ih skipped with
                | object members closes => exact ⟨_, _, begins_of_skipBlank shape (.object members), closes⟩
              next =>
                obtain ⟨behind, scalar, skipped⟩ := ok_of_bind skipped
                obtain ⟨tree, spelled⟩ := spells_of_skipScalar scalar
                exact ⟨tree, behind, begins_of_skipBlank shape spelled, ih skipped⟩
      | inside opened =>
          cases brackets with
          | nil =>
              cases skipped
              exact .done _ _
          | cons isList brackets =>
              rcases skipSteps_inside skipped with ⟨after, blank, closed⟩ | ⟨start, value, separated, due, more⟩
              · exact (ih closed).close blank
              · exact .value (ih more) separated due

/-- A value that is read over is spelled, however deep it is nested. -/
theorem exists_begins_of_skipValue (skipped : skipValue text = .ok rest) : ∃ tree, Begins tree text rest := by
  obtain ⟨tree, middle, begins, closes⟩ := skipped_of_skipSteps skipped
  cases closes with
  | done _ _ => exact ⟨tree, begins⟩

/-! ## Values of a given shape -/

variable {α : Type}

theorem exists_head_of_readFirst {read : Char → List Char → Except Fault (α × List Char)} {result : α × List Char}
    (taken : readFirst read text = .ok result) :
    ∃ c after, skipBlank text = c :: after ∧ read c after = .ok result := by
  unfold readFirst at taken
  split at taken
  next => cases taken
  next c after shape => exact ⟨c, after, shape, taken⟩

theorem units_of_readText {expected : String} {make : String → Except Reason α} {value : α}
    (read : readText expected make text = .ok (value, rest)) :
    ∃ units name, Blank text ('"' :: name) ∧ SpellsUnits units name rest := by
  obtain ⟨c, after, shape, read⟩ := exists_head_of_readFirst read
  dsimp only at read
  split at read
  next quote =>
    subst quote
    obtain ⟨⟨chars, behind⟩, string, read⟩ := ok_of_bind read
    dsimp only at read
    split at read
    next =>
      cases read
      exact ⟨_, after, blank_of_skipBlank shape, units_of_readString string⟩
    next => cases read
  next => cases read

theorem readCount_sound : readCount.Sound := by
  intro count text rest read
  obtain ⟨c, after, shape, read⟩ := exists_head_of_readFirst read
  dsimp only at read
  split at read
  next =>
    obtain ⟨⟨value, behind⟩, scalar, read⟩ := ok_of_bind read
    obtain ⟨tree, spelled⟩ := spells_of_readScalar scalar
    have same : behind = rest := by
      dsimp only at read
      split at read <;> cases read
      rfl
    exact ⟨tree, begins_of_skipBlank shape (same ▸ spelled)⟩
  next => cases read

theorem readNull_sound : readNull.Sound := by
  intro done text rest read
  obtain ⟨c, after, shape, read⟩ := exists_head_of_readFirst read
  dsimp only at read
  split at read
  next =>
    obtain ⟨⟨value, behind⟩, scalar, read⟩ := ok_of_bind read
    cases read
    obtain ⟨tree, spelled⟩ := spells_of_readScalar scalar
    exact ⟨tree, begins_of_skipBlank shape spelled⟩
  next => cases read

theorem readOptional_sound {reader : Reader α} (sound : reader.Sound) : (readOptional reader).Sound := by
  intro value text rest read
  unfold readOptional at read
  split at read
  next after shape =>
    obtain ⟨⟨_, behind⟩, scalar, read⟩ := ok_of_bind read
    cases read
    obtain ⟨tree, spelled⟩ := spells_of_readScalar scalar
    exact ⟨tree, begins_of_skipBlank shape spelled⟩
  next =>
    obtain ⟨⟨found, behind⟩, inner, read⟩ := ok_of_bind read
    cases read
    exact sound _ _ _ inner

/-- A name is spelled as a string, or as the key of an object with the one member null. -/
theorem readVariant_sound (choices : List (String × α)) (depth : Nat) : (readVariant choices depth).Sound := by
  intro value text rest read
  obtain ⟨c, after, shape, read⟩ := exists_head_of_readFirst read
  dsimp only at read
  split at read
  next quote =>
    obtain ⟨units, name, blank, named⟩ := units_of_readText read
    exact ⟨_, _, (blank_of_skipBlank shape).trans blank, .string named⟩
  next =>
    split at read
    next opening =>
      subst opening
      split at read
      next => cases read
      next =>
        obtain ⟨⟨chosen, colon⟩, nameRead, read⟩ := ok_of_bind read
        obtain ⟨start, colonRead, read⟩ := ok_of_bind read
        obtain ⟨⟨_, behind⟩, nullRead, read⟩ := ok_of_bind read
        obtain ⟨units, name, blank, named⟩ := units_of_readText nameRead
        obtain ⟨tree, begins⟩ := readNull_sound _ _ _ nullRead
        have assigns : Assigns tree colon behind := ⟨start, blank_of_readColon colonRead, begins⟩
        dsimp only at read
        split at read
        next => cases read
        next closed =>
          split at read
          next closing =>
            subst closing
            cases read
            have members := assigns.member (.start blank) named (.close (blank_of_skipBlank closed))
            exact ⟨_, begins_of_skipBlank shape (.object members)⟩
          next => cases read
    next => cases read

theorem blank_of_closeList (closed : closeList text = .ok rest) : Blank text (']' :: rest) := by
  unfold closeList at closed
  split at closed
  next => cases closed
  next c after shape =>
    split at closed
    next closing =>
      cases closed
      exact closing ▸ blank_of_skipBlank shape
    next =>
      split at closed
      next => split at closed <;> cases closed
      next => cases closed

/-- A member that is read once has not been read before. -/
theorem assigns_of_readOnce {key : String} {earlier : Option α} {reader : Reader α} (sound : reader.Sound) {value : α}
    (read : readOnce key earlier reader text = .ok (value, rest)) :
    earlier = none ∧ ∃ tree, Assigns tree text rest := by
  unfold readOnce at read
  cases earlier with
  | some _ => cases read
  | none =>
      obtain ⟨after, colon, read⟩ := ok_of_bind read
      obtain ⟨tree, begins⟩ := sound _ _ _ read
      exact ⟨rfl, tree, after, blank_of_readColon colon, begins⟩

end FilterSql.Json
