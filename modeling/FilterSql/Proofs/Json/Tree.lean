import FilterSql.Json.Reader

/-!
# Trees of JSON texts

All that is written in a JSON text: unlike a value, the tree of a text keeps the members that later ones of the same key
replace. Reading a value is reading a tree and dropping those members, so that a value is nested no deeper than its
text.
-/

set_option autoImplicit false

namespace FilterSql.Json

/-- What a text says. An object may have several members of the same key. -/
inductive Tree where
  | leaf (value : Json)
  | list (items : List Tree)
  | object (members : List (String × Tree))

namespace Tree

mutual

/-- The value of a text: of several members of the same key the last one counts. -/
def value : Tree → Json
  | leaf value => value
  | list items => .array (values items)
  | object members => .object (collect [] members)

def values : List Tree → List Json
  | [] => []
  | item :: rest => value item :: values rest

def collect (collected : List (String × Json)) : List (String × Tree) → List (String × Json)
  | [] => collected
  | (key, tree) :: rest => collect (insertMember collected key (value tree)) rest

end

mutual

/-- The greatest number of lists and objects around any point of the text. -/
def nesting : Tree → Nat
  | leaf value => value.nesting
  | list items => nestingOfItems items + 1
  | object members => nestingOfMembers members + 1

def nestingOfItems : List Tree → Nat
  | [] => 0
  | item :: rest => max (nesting item) (nestingOfItems rest)

def nestingOfMembers : List (String × Tree) → Nat
  | [] => 0
  | (_, tree) :: rest => max (nesting tree) (nestingOfMembers rest)

end

theorem values_eq_map (items : List Tree) : values items = items.map value := by
  induction items with
  | nil => rfl
  | cons item rest ih => rw [values, ih, List.map_cons]

theorem collect_append (collected : List (String × Json)) (members : List (String × Tree)) (key : String)
    (tree : Tree) :
    collect collected (members ++ [(key, tree)]) = insertMember (collect collected members) key tree.value := by
  induction members generalizing collected with
  | nil => rfl
  | cons member rest ih => exact ih _

/-! ## Nesting -/

theorem nesting_insertMember_le (members : List (String × Json)) (key : String) (value : Json) :
    Json.nestingOfMembers (insertMember members key value) ≤ max (Json.nestingOfMembers members) value.nesting := by
  induction members with
  | nil => simp [insertMember, Json.nestingOfMembers]
  | cons member rest ih =>
      unfold insertMember
      split
      · simp only [Json.nestingOfMembers]
        omega
      · simp only [Json.nestingOfMembers]
        omega

mutual

theorem nesting_value_le : ∀ tree : Tree, tree.value.nesting ≤ tree.nesting
  | leaf value => Nat.le_refl _
  | list items => Nat.succ_le_succ (nesting_values_le items)
  | object members => by
      have bounded := nesting_collect_le [] members
      simp only [Json.nestingOfMembers, value, Json.nesting, nesting] at bounded ⊢
      omega

theorem nesting_values_le : ∀ items : List Tree, Json.nestingOfItems (values items) ≤ nestingOfItems items
  | [] => Nat.le_refl _
  | item :: rest => by
      have first := nesting_value_le item
      have others := nesting_values_le rest
      simp only [values, Json.nestingOfItems, nestingOfItems]
      omega

theorem nesting_collect_le : ∀ (collected : List (String × Json)) (members : List (String × Tree)),
    Json.nestingOfMembers (collect collected members) ≤ max (Json.nestingOfMembers collected) (nestingOfMembers members)
  | collected, [] => Nat.le_max_left _ _
  | collected, (key, tree) :: rest => by
      have first := nesting_value_le tree
      have inserted := nesting_insertMember_le collected key tree.value
      have others := nesting_collect_le (insertMember collected key tree.value) rest
      simp only [collect, nestingOfMembers]
      omega

end

/-! ## Reading -/

def readMember (tree : Reader Tree) (collected : List (String × Tree)) (key : String) :
    Reader (List (String × Tree)) := fun text => do
  let rest ← readColon text
  let (value, rest) ← tree rest
  .ok (collected ++ [(key, value)], rest)

/-- Reads the tree of a value with at most `depth` lists and objects inside each other. -/
def reader (depth : Nat) : Reader Tree := fun text =>
  match skipBlank text with
  | [] => .error (.upon .endInValue [])
  | c :: rest =>
    if c = '[' then
      match depth with
      | 0 => .error (.upon .nestingLimit (c :: rest))
      | inner + 1 => do
        let (items, rest) ← readList (reader inner) rest
        .ok (.list items, rest)
    else if c = '\x7b' then
      match depth with
      | 0 => .error (.upon .nestingLimit (c :: rest))
      | inner + 1 => do
        let (members, rest) ← readObject (readMember (reader inner)) [] rest
        .ok (.object members, rest)
    else do
      let (value, rest) ← readScalar c rest
      .ok (.leaf value, rest)

def parse (text : String) : Except ParseError Tree :=
  readAll (reader maxNesting) text

end Tree

/-- The reader reads what the other one does and makes something of it. -/
def Reader.Maps {α β : Type} (f : α → β) (image : Reader β) (read : Reader α) : Prop :=
  ∀ text, image text = (read text).map (Prod.map f id)

theorem readItems_maps {α β : Type} {f : α → β} {item : Reader α} {image : Reader β} (maps : image.Maps f item)
    (fuel : Nat) (first : Bool) :
    Reader.Maps (List.map f) (readItems image fuel first) (readItems item fuel first) := by
  induction fuel generalizing first with
  | zero => exact fun _ => rfl
  | succ fuel ih =>
      intro text
      unfold readItems
      cases nextItem first text with
      | error fault => rfl
      | ok next =>
          obtain ⟨found, rest⟩ := next
          cases found with
          | false => rfl
          | true =>
              simp only [bind, Except.bind, if_true, maps rest]
              cases item rest with
              | error fault => rfl
              | ok read =>
                  simp only [Except.map, Prod.map, id, ih false read.2]
                  cases readItems item fuel false read.2 <;> rfl

theorem readMembers_maps {σ τ : Type} {f : σ → τ} {member : σ → String → Reader σ} {image : τ → String → Reader τ}
    (maps : ∀ state key, (image (f state) key).Maps f (member state key)) (fuel : Nat) (first : Bool) (state : σ) :
    Reader.Maps f (readMembers image fuel first (f state)) (readMembers member fuel first state) := by
  induction fuel generalizing first state with
  | zero => exact fun _ => rfl
  | succ fuel ih =>
      intro text
      unfold readMembers
      cases nextMember first text with
      | error fault => rfl
      | ok next =>
          obtain ⟨found, rest⟩ := next
          cases found with
          | false => rfl
          | true =>
              simp only [bind, Except.bind, if_true]
              cases readString rest with
              | error fault => rfl
              | ok name =>
                  simp only [maps state name.1 name.2]
                  cases member state name.1 name.2 with
                  | error fault => rfl
                  | ok read => exact ih false read.1 read.2

theorem readPair_maps {image : Reader Json} {tree : Reader Tree} (maps : image.Maps Tree.value tree)
    (collected : List (String × Tree)) (key : String) :
    Reader.Maps (Tree.collect []) (readPair image (Tree.collect [] collected) key)
      (Tree.readMember tree collected key) := by
  intro text
  unfold readPair Tree.readMember
  cases readColon text with
  | error fault => rfl
  | ok rest =>
      simp only [bind, Except.bind, maps rest]
      cases tree rest with
      | error fault => rfl
      | ok read => simp [Except.map, Tree.collect_append]

theorem readValue_maps (depth : Nat) : Reader.Maps Tree.value (readValue depth) (Tree.reader depth) := by
  induction depth with
  | zero =>
      intro text
      unfold readValue Tree.reader
      cases skipBlank text with
      | nil => rfl
      | cons c rest =>
          dsimp only
          split
          · rfl
          · split
            · rfl
            · cases readScalar c rest <;> rfl
  | succ inner ih =>
      intro text
      unfold readValue Tree.reader
      cases skipBlank text with
      | nil => rfl
      | cons c rest =>
          dsimp only
          split
          · rw [readList, readItems_maps ih (rest.length + 1) true rest, readList]
            cases readItems (Tree.reader inner) (rest.length + 1) true rest with
            | error fault => rfl
            | ok read => simp [bind, Except.bind, Except.map, Tree.value, Tree.values_eq_map]
          · split
            · have members : readMembers (readPair (readValue inner)) (rest.length + 1) true [] rest =
                  (readMembers (Tree.readMember (Tree.reader inner)) (rest.length + 1) true [] rest).map
                    (Prod.map (Tree.collect []) id) :=
                readMembers_maps (readPair_maps ih) (rest.length + 1) true [] rest
              rw [readObject, members, readObject]
              cases readMembers (Tree.readMember (Tree.reader inner)) (rest.length + 1) true [] rest <;> rfl
            · cases readScalar c rest <;> rfl

/-- Reading the value of a text is reading its tree. -/
theorem parse_eq (text : String) : parse text = (Tree.parse text).map Tree.value := by
  unfold parse Tree.parse readAll
  rw [readValue_maps maxNesting text.toList]
  cases Tree.reader maxNesting text.toList with
  | error fault => rfl
  | ok read =>
      simp only [Except.map, bind, Except.bind, Prod.map, id]
      cases skipBlank read.2 <;> rfl

theorem readAll_ok_iff {α : Type} {reader : Reader α} {text : String} {value : α} :
    readAll reader text = .ok value ↔ ∃ rest, reader text.toList = .ok (value, rest) ∧ skipBlank rest = [] := by
  unfold readAll
  cases read : reader text.toList with
  | error fault =>
      constructor
      · intro accepted
        cases accepted
      · rintro ⟨rest, taken, _⟩
        cases taken
  | ok result =>
      obtain ⟨found, rest⟩ := result
      simp only [bind, Except.bind]
      constructor
      · intro accepted
        cases blank : skipBlank rest with
        | cons c behind =>
            rw [blank] at accepted
            cases accepted
        | nil =>
            rw [blank] at accepted
            cases accepted
            exact ⟨rest, rfl, blank⟩
      · rintro ⟨behind, same, blank⟩
        cases same
        rw [blank]
        rfl

end FilterSql.Json
