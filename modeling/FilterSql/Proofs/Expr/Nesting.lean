import FilterSql.Expr.Nesting
import FilterSql.Proofs.Json.Scalars
import FilterSql.Proofs.Json.Tree

/-!
# The nesting of a text is what the scan counts

The scan of a raw text knows nothing of JSON. On a text that can be read it is outside of strings wherever the reader
is, and as many brackets are open for it as the reader has opened.
-/

set_option autoImplicit false

namespace FilterSql.Expr

open Json

/-- A scan that starts outside of strings at the one place comes to the other in the given mode, with as many brackets
open as at the start. -/
def Reaches (text : List Char) (mode : ScanMode) (rest : List Char) : Prop :=
  ∀ limit depth, scan limit .outside depth text = scan limit mode depth rest

/-- Wherever reading ends, the scan is outside of strings. -/
def ReachesEnd {α : Type} (text : List Char) (result : Except Fault (α × List Char)) : Prop :=
  ∀ value rest, result = .ok (value, rest) → Reaches text .outside rest

def isMark (c : Char) : Bool :=
  c == '"' || c == '[' || c == ']' || c == '\x7b' || c == '\x7d'

variable {text rest : List Char}

theorem reaches_start (text : List Char) : Reaches text .outside text :=
  fun _ _ => rfl

theorem Reaches.plain {c : Char} (reaches : Reaches text .outside (c :: rest)) (plain : isMark c = false) :
    Reaches text .outside rest := by
  intro limit depth
  rw [reaches limit depth]
  simp only [isMark, Bool.or_eq_false_iff, beq_eq_false_iff_ne] at plain
  simp [scan, plain]

theorem Reaches.quote (reaches : Reaches text .outside ('"' :: rest)) : Reaches text .inString rest := by
  intro limit depth
  rw [reaches limit depth]
  simp [scan]

theorem Reaches.closingQuote (reaches : Reaches text .inString ('"' :: rest)) : Reaches text .outside rest := by
  intro limit depth
  rw [reaches limit depth]
  simp [scan]

theorem Reaches.char {c : Char} (reaches : Reaches text .inString (c :: rest)) (noQuote : c ≠ '"')
    (noEscape : c ≠ '\\') : Reaches text .inString rest := by
  intro limit depth
  rw [reaches limit depth]
  simp [scan, noQuote, noEscape]

theorem Reaches.escape {c : Char} (reaches : Reaches text .inString ('\\' :: c :: rest)) :
    Reaches text .inString rest := by
  intro limit depth
  rw [reaches limit depth]
  simp [scan]

theorem Reaches.chars {chars : List Char} (reaches : Reaches text .inString (chars ++ rest))
    (plain : ∀ c ∈ chars, c ≠ '"' ∧ c ≠ '\\') : Reaches text .inString rest := by
  induction chars with
  | nil => exact reaches
  | cons c chars ih =>
      obtain ⟨first, others⟩ := List.forall_mem_cons.mp plain
      exact ih (reaches.char first.1 first.2) others

theorem Reaches.dropWhile {holds : Char → Bool} (reaches : Reaches text .outside rest)
    (plain : ∀ c, holds c = true → isMark c = false) : Reaches text .outside (rest.dropWhile holds) := by
  induction rest with
  | nil => exact reaches
  | cons c rest ih =>
      by_cases holding : holds c = true
      · rw [List.dropWhile_cons_of_pos holding]
        exact ih (reaches.plain (plain c holding))
      · rw [List.dropWhile_cons_of_neg holding]
        exact reaches

theorem not_isMark_of_isBlank {c : Char} (blank : isBlank c = true) : isMark c = false := by
  simp only [isBlank, Bool.or_eq_true, beq_iff_eq] at blank
  rcases blank with ((rfl | rfl) | rfl) | rfl <;> rfl

theorem Reaches.skipBlank (reaches : Reaches text .outside rest) : Reaches text .outside (skipBlank rest) :=
  reaches.dropWhile fun _ => not_isMark_of_isBlank

theorem not_isMark_of_isDigit {c : Char} (digit : c.isDigit = true) : isMark c = false := by
  simp only [isMark, Bool.or_eq_false_iff, beq_eq_false_iff_ne]
  refine ⟨⟨⟨⟨?_, ?_⟩, ?_⟩, ?_⟩, ?_⟩ <;> rintro rfl <;> exact absurd digit (by decide)

theorem Reaches.dropDigits (reaches : Reaches text .outside rest) :
    Reaches text .outside (rest.dropWhile Char.isDigit) :=
  reaches.dropWhile fun _ => not_isMark_of_isDigit

/-! ## Words and numbers -/

theorem reachesEnd_ok {α : Type} {value : α} (reaches : Reaches text .outside rest) :
    ReachesEnd text (.ok (value, rest) : Except Fault (α × List Char)) := by
  intro _ _ read
  cases read
  exact reaches

theorem reachesEnd_error {α : Type} (fault : Fault) :
    ReachesEnd text (.error fault : Except Fault (α × List Char)) := by
  intro _ _ read
  cases read

theorem ReachesEnd.bind {α β : Type} {first : Except Fault (α × List Char)}
    {next : α × List Char → Except Fault (β × List Char)} (reachesEnd : ReachesEnd text first)
    (continues : ∀ value rest, Reaches text .outside rest → ReachesEnd text (next (value, rest))) :
    ReachesEnd text (first >>= next) := by
  cases first with
  | error fault => exact reachesEnd_error fault
  | ok read => exact continues read.1 read.2 (reachesEnd _ _ rfl)

theorem readLetters_reaches {letters : List Char} (plain : ∀ c ∈ letters, isMark c = false)
    (reaches : Reaches text .outside rest) : ReachesEnd text (readLetters letters rest) := by
  induction letters generalizing rest with
  | nil => exact reachesEnd_ok reaches
  | cons letter letters ih =>
      obtain ⟨first, others⟩ := List.forall_mem_cons.mp plain
      cases rest with
      | nil => exact reachesEnd_error _
      | cons c rest =>
          unfold readLetters
          split
          next same =>
            subst same
            exact ih others (reaches.plain first)
          next => exact reachesEnd_error _

theorem accumulate_reaches (bound value : Nat) (reaches : Reaches text .outside rest) :
    Reaches text .outside (accumulate bound value rest).2.2 := by
  induction rest generalizing value with
  | nil => exact reaches
  | cons c rest ih =>
      unfold accumulate
      split
      next digit => exact ih _ (reaches.plain (not_isMark_of_isDigit digit.1))
      next => exact reaches

theorem makeFloat_reaches (negative : Bool) (significand : Nat) (exponent : Int)
    (reaches : Reaches text .outside rest) : ReachesEnd text (makeFloat negative significand exponent rest) := by
  unfold makeFloat
  split
  · exact reachesEnd_ok reaches
  · exact reachesEnd_error _

theorem readExponent_reaches (negative : Bool) (significand : Nat) (exponent : Int)
    (reaches : Reaches text .outside rest) : ReachesEnd text (readExponent negative significand exponent rest) := by
  unfold readExponent
  split
  next down digits signed =>
  have unsigned : Reaches text .outside digits := by
    split at signed <;> cases signed
    · exact reaches.plain rfl
    · exact reaches.plain rfl
    · exact reaches
  cases digits with
  | nil => exact reachesEnd_error _
  | cons c digits =>
      have behind := accumulate_reaches maxExponent 0 unsigned
      dsimp only
      split
      · split
        · split
          · exact reachesEnd_error _
          · exact reachesEnd_ok behind.dropDigits
        · exact makeFloat_reaches _ _ _ behind
      · exact reachesEnd_error _

theorem finishFloat_reaches (negative : Bool) (significand : Nat) (exponent : Int)
    (reaches : Reaches text .outside rest) : ReachesEnd text (finishFloat negative significand exponent rest) := by
  unfold finishFloat
  split
  next c rest =>
    split
    next letter =>
      refine readExponent_reaches _ _ _ (reaches.plain ?_)
      rcases letter with rfl | rfl <;> rfl
    next => exact makeFloat_reaches _ _ _ reaches
  next => exact makeFloat_reaches _ _ _ reaches

theorem readFraction_reaches (negative : Bool) (significand : Nat) (exponent : Int)
    (reaches : Reaches text .outside rest) : ReachesEnd text (readFraction negative significand exponent rest) := by
  have behind := accumulate_reaches maxSignificand significand reaches
  unfold readFraction
  dsimp only
  split
  · exact finishFloat_reaches _ _ _ behind.dropDigits
  · split
    · exact reachesEnd_error _
    · exact finishFloat_reaches _ _ _ behind

theorem finishNumber_reaches (negative : Bool) (significand : Nat) (reaches : Reaches text .outside rest) :
    ReachesEnd text (finishNumber negative significand rest) := by
  unfold finishNumber
  split
  · exact reachesEnd_ok reaches
  next c rest =>
    split
    next point =>
      subst point
      exact readFraction_reaches _ _ _ (reaches.plain rfl)
    next =>
      split
      next letter =>
        refine readExponent_reaches _ _ _ (reaches.plain ?_)
        rcases letter with rfl | rfl <;> rfl
      next => exact reachesEnd_ok reaches

theorem finishLongNumber_reaches (negative : Bool) (significand : Nat) (reaches : Reaches text .outside rest) :
    ReachesEnd text (finishLongNumber negative significand rest) := by
  have behind := reaches.dropDigits
  unfold finishLongNumber
  dsimp only
  split
  next after shape =>
    rw [shape] at behind
    exact readFraction_reaches _ _ _ (behind.plain rfl)
  next => exact finishFloat_reaches _ _ _ behind

theorem readNumber_reaches (negative : Bool) (reaches : Reaches text .outside rest) :
    ReachesEnd text (readNumber negative rest) := by
  unfold readNumber
  split
  · exact reachesEnd_error _
  next c rest =>
    split
    next zero =>
      subst zero
      split
      · exact reachesEnd_error _
      · exact finishNumber_reaches _ _ (reaches.plain rfl)
    next =>
      have behind := accumulate_reaches maxSignificand 0 reaches
      split
      · dsimp only
        split
        · exact finishLongNumber_reaches _ _ behind
        · exact finishNumber_reaches _ _ behind
      · exact reachesEnd_error _

/-! ## Strings -/

theorem readHex_reaches {code : Nat} {after : List Char} (reaches : Reaches text .inString rest)
    (read : readHex rest = .ok (code, after)) : Reaches text .inString after := by
  obtain ⟨-, digits⟩ := hexDigits_of_readHex read
  rw [← List.take_append_drop 4 rest, ← rest_of_readHex read] at reaches
  refine reaches.chars fun c member => ?_
  constructor <;> rintro rfl <;> exact absurd (digits _ member) (by decide)

theorem readCodePoint_reaches {c : Char} {after : List Char} (reaches : Reaches text .inString rest)
    (read : readCodePoint rest = .ok (c, after)) : Reaches text .inString after := by
  unfold readCodePoint at read
  obtain ⟨⟨first, behind⟩, firstRead, read⟩ := ok_of_bind read
  have firstReaches := readHex_reaches reaches firstRead
  dsimp only at read
  split at read
  · cases read
  · split at read
    · cases read
      exact firstReaches
    · obtain ⟨marked, backslash, read⟩ := ok_of_bind read
      obtain ⟨digits, letter, read⟩ := ok_of_bind read
      obtain ⟨⟨second, behind⟩, secondRead, read⟩ := ok_of_bind read
      rw [text_of_readMark backslash, text_of_readMark letter] at firstReaches
      have secondReaches := readHex_reaches firstReaches.escape secondRead
      dsimp only at read
      split at read
      · cases read
      · simp only [Except.ok.injEq, Prod.mk.injEq] at read
        exact read.2 ▸ secondReaches

theorem readStringChar_reaches {c plain : Char} {after : List Char} (reaches : Reaches text .inString (c :: rest))
    (noQuote : c ≠ '"') (read : readStringChar c rest = .ok (plain, after)) : Reaches text .inString after := by
  unfold readStringChar at read
  split at read
  next escape =>
    subst escape
    split at read
    next => cases read
    next letter rest =>
      have escaped := reaches.escape
      split at read
      next => exact readCodePoint_reaches escaped read
      next =>
        split at read
        next =>
          cases read
          exact escaped
        next => cases read
  next noEscape =>
    split at read
    · cases read
    · cases read
      exact reaches.char noQuote noEscape

theorem readStringChars_reaches {fuel : Nat} (reaches : Reaches text .inString rest) :
    ReachesEnd text (readStringChars fuel rest) := by
  induction fuel generalizing rest with
  | zero => exact reachesEnd_error _
  | succ fuel ih =>
      cases rest with
      | nil => exact reachesEnd_error _
      | cons c rest =>
          intro chars after read
          unfold readStringChars at read
          split at read
          next quote =>
            subst quote
            cases read
            exact reaches.closingQuote
          next noQuote =>
            obtain ⟨⟨plain, behind⟩, charRead, read⟩ := ok_of_bind read
            obtain ⟨⟨plains, behind⟩, charsRead, read⟩ := ok_of_bind read
            cases read
            exact ih (readStringChar_reaches reaches noQuote charRead) _ _ charsRead

theorem readString_reaches (reaches : Reaches text .inString rest) : ReachesEnd text (readString rest) :=
  (readStringChars_reaches reaches).bind fun _ _ behind => reachesEnd_ok behind

/-! ## Scalars and separators -/

/-- A value with no parts is what was read for it. -/
theorem leaf_reaches {α : Type} {found : Except Fault (α × List Char)} (leaf : α → Json)
    (flat : ∀ part, (leaf part).nesting = 0) (reachesEnd : ReachesEnd text found) {value : Json} {after : List Char}
    (read : (found >>= fun part => .ok (leaf part.1, part.2)) = Except.ok (value, after)) :
    value.nesting = 0 ∧ Reaches text .outside after := by
  obtain ⟨part, partRead, read⟩ := ok_of_bind read
  cases read
  exact ⟨flat part.1, reachesEnd part.1 part.2 partRead⟩

theorem readScalar_reaches {c : Char} {value : Json} {after : List Char}
    (reaches : Reaches text .outside (c :: rest)) (read : readScalar c rest = .ok (value, after)) :
    value.nesting = 0 ∧ Reaches text .outside after := by
  have word : ∀ letters : List Char, letters.any isMark = false → isMark c = false →
      ReachesEnd text (readLetters letters rest) := fun letters plain first =>
    readLetters_reaches (by simpa using plain) (reaches.plain first)
  unfold readScalar at read
  split at read
  next letter => exact leaf_reaches (fun _ => .null) (fun _ => rfl) (word _ rfl (letter ▸ rfl)) read
  next =>
  split at read
  next letter => exact leaf_reaches (fun _ => .bool true) (fun _ => rfl) (word _ rfl (letter ▸ rfl)) read
  next =>
  split at read
  next letter => exact leaf_reaches (fun _ => .bool false) (fun _ => rfl) (word _ rfl (letter ▸ rfl)) read
  next =>
  split at read
  next sign => exact leaf_reaches .number (fun _ => rfl) (readNumber_reaches true (reaches.plain (sign ▸ rfl))) read
  next =>
  split at read
  next digit => exact leaf_reaches .number (fun _ => rfl) (readNumber_reaches false reaches) read
  next =>
  split at read
  next quote =>
    subst quote
    exact leaf_reaches .string (fun _ => rfl) (readString_reaches reaches.quote) read
  next => cases read

theorem readColon_reaches {after : List Char} (reaches : Reaches text .outside rest)
    (read : readColon rest = .ok after) : Reaches text .outside after := by
  have blank := reaches.skipBlank
  unfold readColon at read
  split at read
  next => cases read
  next c rest shape =>
    rw [shape] at blank
    split at read
    next colon =>
      subst colon
      cases read
      exact blank.plain rfl
    next => cases read

theorem nextItem_reaches {first found : Bool} {after : List Char} (reaches : Reaches text .outside rest)
    (read : nextItem first rest = .ok (found, after)) :
    Reaches text .outside after ∧ (found = false → ∃ behind, after = ']' :: behind) := by
  have blank := reaches.skipBlank
  unfold nextItem at read
  split at read
  next => cases read
  next c rest shape =>
    rw [shape] at blank
    split at read
    next closing =>
      subst closing
      cases read
      exact ⟨blank, fun _ => ⟨rest, rfl⟩⟩
    next =>
      split at read
      next =>
        cases read
        exact ⟨blank, by simp⟩
      next =>
        split at read
        next comma =>
          subst comma
          have behind := (blank.plain rfl).skipBlank
          split at read
          next => cases read
          next next rest shape =>
            rw [shape] at behind
            split at read
            next => cases read
            next =>
              cases read
              exact ⟨behind, by simp⟩
        next => cases read

/-- What the reader of an object has found: a member, from the quote of its key on, or the closing bracket. -/
theorem nextMember_reaches {first found : Bool} {after : List Char} (reaches : Reaches text .outside rest)
    (read : nextMember first rest = .ok (found, after)) :
    if found then Reaches text .inString after
    else Reaches text .outside after ∧ ∃ behind, after = '\x7d' :: behind := by
  have blank := reaches.skipBlank
  unfold nextMember at read
  split at read
  next => cases read
  next c rest shape =>
    rw [shape] at blank
    split at read
    next closing =>
      subst closing
      cases read
      exact ⟨blank, rest, rfl⟩
    next =>
      split at read
      next =>
        split at read
        next quote =>
          subst quote
          cases read
          exact blank.quote
        next => cases read
      next =>
        split at read
        next comma =>
          subst comma
          have behind := (blank.plain rfl).skipBlank
          split at read
          next => cases read
          next next rest shape =>
            rw [shape] at behind
            split at read
            next quote =>
              subst quote
              cases read
              exact behind.quote
            next => split at read <;> cases read
        next => cases read

/-! ## Lists and objects -/

/-- The scan gets from the one place of the text to the other, if the nesting of what stands between fits within the
limit. -/
def Weighs (text : List Char) (nesting : Nat) (rest : List Char) : Prop :=
  ∀ limit depth, depth ≤ limit →
    (scan limit .outside depth text = true ↔ depth + nesting ≤ limit ∧ scan limit .outside depth rest = true)

theorem Reaches.weighs (reaches : Reaches text .outside rest) : Weighs text 0 rest := by
  intro limit depth open'
  rw [reaches limit depth]
  simp [open']

theorem Reaches.before {nesting : Nat} {middle : List Char} (reaches : Reaches text .outside middle)
    (weighs : Weighs middle nesting rest) : Weighs text nesting rest := by
  intro limit depth within
  rw [reaches limit depth]
  exact weighs limit depth within

theorem Weighs.append {first second : Nat} {middle : List Char} (left : Weighs text first middle)
    (right : Weighs middle second rest) : Weighs text (max first second) rest := by
  intro limit depth within
  rw [left limit depth within, right limit depth within, ← and_assoc, ← Nat.max_le, Nat.add_max_add_left]

theorem Weighs.bracket {inner : List Char} {nesting : Nat} {opening closing : Char}
    (opens : opening = '[' ∨ opening = '\x7b') (closes : closing = ']' ∨ closing = '\x7d')
    (weighs : Weighs inner nesting (closing :: rest)) : Weighs (opening :: inner) (nesting + 1) rest := by
  intro limit depth within
  have entered : scan limit .outside depth (opening :: inner) =
      (depth < limit && scan limit .outside (depth + 1) inner) := by
    rcases opens with rfl | rfl <;> simp [scan]
  have left : scan limit .outside (depth + 1) (closing :: rest) = scan limit .outside depth rest := by
    rcases closes with rfl | rfl <;> simp [scan]
  rw [entered, Bool.and_eq_true, decide_eq_true_iff]
  constructor
  · intro ⟨room, inside⟩
    obtain ⟨fits, behind⟩ := (weighs limit (depth + 1) room).mp inside
    exact ⟨by omega, left ▸ behind⟩
  · intro ⟨fits, behind⟩
    have room : depth + 1 ≤ limit := by omega
    exact ⟨room, (weighs limit (depth + 1) room).mpr ⟨by omega, left.symm ▸ behind⟩⟩

theorem readItems_weighs {item : Reader Tree}
    (weighs : ∀ text tree rest, item text = .ok (tree, rest) → Weighs text tree.nesting rest) {fuel : Nat}
    {first : Bool} {text rest : List Char} {items : List Tree}
    (read : readItems item fuel first text = .ok (items, rest)) :
    Weighs text (Tree.nestingOfItems items) (']' :: rest) := by
  -- The reader of the items takes the closing bracket, but it is the list's: the scan stops before it.
  induction fuel generalizing first text items with
  | zero => cases read
  | succ fuel ih =>
      unfold readItems at read
      obtain ⟨⟨found, behind⟩, next, read⟩ := ok_of_bind read
      obtain ⟨reaches, closing⟩ := nextItem_reaches (reaches_start text) next
      cases found with
      | false =>
          obtain ⟨after, rfl⟩ := closing rfl
          cases read
          exact reaches.weighs
      | true =>
          obtain ⟨⟨tree, behind⟩, itemRead, read⟩ := ok_of_bind read
          obtain ⟨⟨trees, after⟩, itemsRead, read⟩ := ok_of_bind read
          cases read
          exact reaches.before ((weighs _ _ _ itemRead).append (ih itemsRead))

theorem readMember_weighs {tree : Reader Tree}
    (weighs : ∀ text value rest, tree text = .ok (value, rest) → Weighs text value.nesting rest)
    {collected members : List (String × Tree)} {key : String} {text rest : List Char}
    (read : Tree.readMember tree collected key text = .ok (members, rest)) :
    ∃ value, members = collected ++ [(key, value)] ∧ Weighs text value.nesting rest := by
  unfold Tree.readMember at read
  obtain ⟨behind, colon, read⟩ := ok_of_bind read
  obtain ⟨⟨value, after⟩, treeRead, read⟩ := ok_of_bind read
  cases read
  exact ⟨value, rfl, (readColon_reaches (reaches_start text) colon).before (weighs _ _ _ treeRead)⟩

theorem readMembers_weighs {tree : Reader Tree}
    (weighs : ∀ text value rest, tree text = .ok (value, rest) → Weighs text value.nesting rest) {fuel : Nat}
    {first : Bool} {text rest : List Char} {collected members : List (String × Tree)}
    (read : readMembers (Tree.readMember tree) fuel first collected text = .ok (members, rest)) :
    ∃ added, members = collected ++ added ∧ Weighs text (Tree.nestingOfMembers added) ('\x7d' :: rest) := by
  induction fuel generalizing first text collected with
  | zero => cases read
  | succ fuel ih =>
      unfold readMembers at read
      obtain ⟨⟨found, behind⟩, next, read⟩ := ok_of_bind read
      have reaches := nextMember_reaches (reaches_start text) next
      cases found with
      | false =>
          obtain ⟨reaches, after, rfl⟩ := reaches
          cases read
          exact ⟨[], by simp, reaches.weighs⟩
      | true =>
          obtain ⟨⟨key, behind⟩, keyRead, read⟩ := ok_of_bind read
          obtain ⟨⟨grown, after⟩, memberRead, read⟩ := ok_of_bind read
          obtain ⟨value, rfl, member⟩ := readMember_weighs weighs memberRead
          obtain ⟨added, rfl, others⟩ := ih read
          have keyReaches := readString_reaches reaches _ _ keyRead
          exact ⟨(key, value) :: added, by simp, keyReaches.before (member.append others)⟩

/-- The scan gets over what is read as a tree, if the nesting of the tree is within the limit. -/
theorem reader_weighs {depth : Nat} {text rest : List Char} {tree : Tree}
    (read : Tree.reader depth text = .ok (tree, rest)) : Weighs text tree.nesting rest := by
  -- By recursion on the depth, which is one less for what a bracket holds.
  have blank := (reaches_start text).skipBlank
  unfold Tree.reader at read
  split at read
  next => cases read
  next c behind shape =>
    rw [shape] at blank
    split at read
    next opening =>
      subst opening
      cases depth with
      | zero => cases read
      | succ inner =>
          obtain ⟨⟨items, after⟩, itemsRead, read⟩ := ok_of_bind read
          cases read
          have inside := readItems_weighs (fun _ _ _ read => reader_weighs read) itemsRead
          exact blank.before (inside.bracket (.inl rfl) (.inl rfl))
    next =>
      split at read
      next opening =>
        subst opening
        cases depth with
        | zero => cases read
        | succ inner =>
            obtain ⟨⟨members, after⟩, membersRead, read⟩ := ok_of_bind read
            cases read
            obtain ⟨added, same, inside⟩ := readMembers_weighs (fun _ _ _ read => reader_weighs read) membersRead
            obtain rfl : members = added := by simpa using same
            exact blank.before (inside.bracket (.inr rfl) (.inr rfl))
      next =>
        obtain ⟨⟨value, after⟩, scalarRead, read⟩ := ok_of_bind read
        cases read
        obtain ⟨flat, reaches⟩ := readScalar_reaches blank scalarRead
        rw [Tree.nesting, flat]
        exact reaches.weighs

/-- On a text that can be read the scan is a check of its nesting. -/
theorem checkNesting_eq {text : String} {tree : Tree} (read : Tree.parse text = .ok tree) (limit : Nat) :
    checkNesting text limit = if tree.nesting ≤ limit then .ok () else .error (.tooDeep limit) := by
  obtain ⟨rest, treeRead, blank⟩ := readAll_ok_iff.mp read
  have ended : scan limit .outside 0 rest = true := by
    rw [(reaches_start rest).skipBlank limit 0, blank]
    rfl
  have weighed := reader_weighs treeRead limit 0 (Nat.zero_le limit)
  simp only [ended, Nat.zero_add, and_true] at weighed
  unfold checkNesting
  simp only [weighed]

end FilterSql.Expr
