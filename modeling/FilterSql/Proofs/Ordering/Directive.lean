import FilterSql.Ordering
import FilterSql.Proofs.Expr.Compile
import FilterSql.Proofs.Schema.Resolution
import FilterSql.Proofs.Schema.Words
import Mathlib.Data.List.TakeWhile

/-!
# Directives

What is read as a directive is a path of words, blanks, and a direction in any case, and it is read in one way only. Its
path means what it means as an expression.
-/

set_option autoImplicit false

namespace FilterSql

open Schema (RecordType WordPath resolve)

/-! ## Letters in any case -/

theorem toLower_eq_iff {c letter : Char} (low : letter.isLower = true) :
    c.toLower = letter ↔ c = letter ∨ c = letter.toUpper := by
  have range : 'a'.val ≤ letter.val ∧ letter.val ≤ 'z'.val :=
    (Bool.and_eq_true_iff.mp low).imp of_decide_eq_true of_decide_eq_true
  have least : 97 ≤ letter.val.toNat := UInt32.le_iff_toNat_le.mp range.1
  have greatest : letter.val.toNat ≤ 122 := UInt32.le_iff_toNat_le.mp range.2
  have down : ('A'.val - 'a'.val).toNat = 4294967264 := rfl
  have up : ('a'.val - 'A'.val).toNat = 32 := rfl
  unfold Char.toLower Char.toUpper
  rw [dif_pos range]
  split
  next capital =>
    have from_A : 65 ≤ c.val.toNat := UInt32.le_iff_toNat_le.mp capital.1
    have to_Z : c.val.toNat ≤ 90 := UInt32.le_iff_toNat_le.mp capital.2
    simp only [Char.ext_iff, ← UInt32.toNat_inj, UInt32.toNat_add]
    omega
  next other =>
    have outside : ¬ (65 ≤ c.val.toNat ∧ c.val.toNat ≤ 90) := fun within =>
      other ⟨UInt32.le_iff_toNat_le.mpr within.1, UInt32.le_iff_toNat_le.mpr within.2⟩
    simp only [Char.ext_iff, ← UInt32.toNat_inj, UInt32.toNat_add]
    omega

/-- The word has the letters of the keyword, each of them small or capital. -/
def Spells (keyword word : String) : Prop :=
  List.Forall₂ (fun letter c => c = letter ∨ c = letter.toUpper) keyword.toList word.toList

instance (keyword word : String) : Decidable (Spells keyword word) :=
  inferInstanceAs (Decidable (List.Forall₂ _ _ _))

theorem map_toLower_eq_iff {letters word : List Char} (low : letters.all Char.isLower = true) :
    word.map Char.toLower = letters ↔ List.Forall₂ (fun letter c => c = letter ∨ c = letter.toUpper) letters word := by
  induction letters generalizing word with
  | nil => simp
  | cons letter rest ih =>
      obtain ⟨first, others⟩ := Bool.and_eq_true_iff.mp low
      cases word with
      | nil => simp
      | cons c word => simp [toLower_eq_iff first, ih others]

theorem Spells.head_eq {keyword word : String} (spells : Spells keyword word) {letter : Char} {rest : List Char}
    (starts : keyword.toList = letter :: rest) {c : Char} (head : c ∈ word.toList.head?) :
    c = letter ∨ c = letter.toUpper := by
  unfold Spells at spells
  rw [starts] at spells
  obtain ⟨first, _, same, _, shape⟩ := List.forall₂_cons_left_iff.mp spells
  rw [shape] at head
  obtain rfl : first = c := Option.some.inj head
  exact same

namespace Order

theorem direction_iff {word : String} {descending : Bool} :
    direction? word.toList = some descending ↔ Spells (if descending then "desc" else "asc") word := by
  have asc : word.toList.map Char.toLower = ['a', 's', 'c'] ↔ Spells "asc" word := map_toLower_eq_iff rfl
  have desc : word.toList.map Char.toLower = ['d', 'e', 's', 'c'] ↔ Spells "desc" word := map_toLower_eq_iff rfl
  unfold direction?
  cases descending with
  | false =>
      rw [if_neg Bool.false_ne_true, ← asc]
      by_cases ascends : word.toList.map Char.toLower = ['a', 's', 'c'] <;> simp [ascends]
  | true =>
      rw [if_pos rfl, ← desc]
      by_cases ascends : word.toList.map Char.toLower = ['a', 's', 'c'] <;> simp [ascends]

/-! ## The grammar -/

/-- The directive consists of a path, blanks, and the word for a direction. -/
structure Reads (directive path gap word : String) : Prop where
  parts : directive = path ++ gap ++ word
  path : WordPath path
  apart : gap ≠ ""
  blanks : ∀ c ∈ gap.toList, c ∈ ['\t', '\n', '\x0c', '\r', ' ']
  direction : Spells "asc" word ∨ Spells "desc" word

theorem isGap_iff {c : Char} : isGap c = true ↔ c ∈ ['\t', '\n', '\x0c', '\r', ' '] := by
  simp [isGap, or_assoc]

theorem not_isPathChar_of_isGap {c : Char} (gap : isGap c = true) : isPathChar c = false := by
  have kinds := isGap_iff.mp gap
  simp only [List.mem_cons, List.not_mem_nil, or_false] at kinds
  rcases kinds with rfl | rfl | rfl | rfl | rfl <;> decide

theorem isPathChar_of_acceptsPath {chars : List Char} {inWord : Bool}
    (accepted : Schema.acceptsPath inWord chars = true) : ∀ c ∈ chars, isPathChar c = true := by
  induction chars generalizing inWord with
  | nil => exact List.forall_mem_nil _
  | cons c rest ih =>
      unfold Schema.acceptsPath at accepted
      split at accepted
      next word => exact List.forall_mem_cons.mpr ⟨by simp [isPathChar, word], ih accepted⟩
      next =>
        obtain ⟨point, following⟩ := Bool.and_eq_true_iff.mp accepted
        exact List.forall_mem_cons.mpr ⟨by simp [isPathChar, (Bool.and_eq_true_iff.mp point).2], ih following⟩

/-- A run of characters ends where the first of another kind stands. -/
theorem span_append {kind : Char → Bool} {front back : List Char} (all : ∀ c ∈ front, kind c = true)
    (stop : ∀ c ∈ back.head?, kind c = false) :
    (front ++ back).takeWhile kind = front ∧ (front ++ back).dropWhile kind = back := by
  rw [List.takeWhile_append_of_pos all, List.dropWhile_append_of_pos all]
  cases back with
  | nil => simp
  | cons c rest => simp [stop c rfl]

namespace Reads

variable {directive path gap word : String} (reads : Reads directive path gap word)
include reads

theorem not_isGap_of_mem_head : ∀ c ∈ word.toList.head?, isGap c = false := by
  intro c head
  rcases reads.direction with ascends | descends
  · rcases ascends.head_eq rfl head with rfl | rfl <;> rfl
  · rcases descends.head_eq rfl head with rfl | rfl <;> rfl

theorem toList_eq : directive.toList = path.toList ++ (gap.toList ++ word.toList) := by
  simp [reads.parts]

theorem isPathChar_of_mem : ∀ c ∈ path.toList, isPathChar c = true :=
  isPathChar_of_acceptsPath (Schema.isDottedPath_iff_wordPath.mpr reads.path)

theorem isGap_of_mem_head : ∀ c ∈ (gap.toList ++ word.toList).head?, isGap c = true := by
  intro c head
  obtain ⟨first, rest, blank⟩ : ∃ first rest, gap.toList = first :: rest :=
    List.exists_cons_of_ne_nil (mt String.toList_eq_nil_iff.mp reads.apart)
  obtain rfl : first = c := by simpa [blank] using head
  exact isGap_iff.mpr (reads.blanks first (by simp [blank]))

theorem path_eq : directive.toList.takeWhile isPathChar = path.toList ∧
    directive.toList.dropWhile isPathChar = gap.toList ++ word.toList := by
  rw [reads.toList_eq]
  exact span_append reads.isPathChar_of_mem fun c head => not_isPathChar_of_isGap (reads.isGap_of_mem_head c head)

theorem gap_eq : (gap.toList ++ word.toList).takeWhile isGap = gap.toList ∧
    (gap.toList ++ word.toList).dropWhile isGap = word.toList :=
  span_append (fun c member => isGap_iff.mpr (reads.blanks c member)) reads.not_isGap_of_mem_head

theorem unique {path' gap' word' : String} (others : Reads directive path' gap' word') :
    path = path' ∧ gap = gap' ∧ word = word' := by
  have samePath : path.toList = path'.toList := reads.path_eq.1.symm.trans others.path_eq.1
  have sameRest : gap.toList ++ word.toList = gap'.toList ++ word'.toList := reads.path_eq.2.symm.trans others.path_eq.2
  have sameGap : gap.toList = gap'.toList := by rw [← reads.gap_eq.1, sameRest, others.gap_eq.1]
  have sameWord : word.toList = word'.toList := by rw [← reads.gap_eq.2, sameRest, others.gap_eq.2]
  exact ⟨String.toList_inj.mp samePath, String.toList_inj.mp sameGap, String.toList_inj.mp sameWord⟩

end Reads

theorem Reads.split_eq {directive path gap word : String} (reads : Reads directive path gap word) {descending : Bool}
    (direction : Spells (if descending then "desc" else "asc") word) : split? directive = some (path, descending) := by
  have shorter : word.toList.length < (gap.toList ++ word.toList).length := by
    have some : 0 < gap.toList.length := List.length_pos_iff.mpr (mt String.toList_eq_nil_iff.mp reads.apart)
    rw [List.length_append]
    omega
  unfold split?
  dsimp only
  rw [reads.path_eq.1, reads.path_eq.2, reads.gap_eq.2, String.ofList_toList, direction_iff.mpr direction,
    if_pos ⟨Schema.isDottedPath_iff_wordPath.mpr reads.path, shorter⟩]
  rfl

theorem reads_of_split {directive path : String} {descending : Bool}
    (found : split? directive = some (path, descending)) :
    ∃ gap word, Reads directive path gap word ∧ Spells (if descending then "desc" else "asc") word := by
  unfold split? at found
  dsimp only at found
  split at found
  next admitted =>
    obtain ⟨_, known, same⟩ := Option.map_eq_some_iff.mp found
    cases same
    obtain ⟨dotted, shorter⟩ := admitted
    have parts : directive.toList = directive.toList.takeWhile isPathChar ++ directive.toList.dropWhile isPathChar :=
      List.takeWhile_append_dropWhile.symm
    generalize directive.toList.takeWhile isPathChar = front, directive.toList.dropWhile isPathChar = rest
      at parts dotted shorter known ⊢
    have whole : rest.takeWhile isGap ++ rest.dropWhile isGap = rest := List.takeWhile_append_dropWhile
    have spelled : Spells (if descending then "desc" else "asc") (String.ofList (rest.dropWhile isGap)) :=
      direction_iff.mp (by rwa [String.toList_ofList])
    refine ⟨String.ofList (rest.takeWhile isGap), String.ofList (rest.dropWhile isGap), ⟨?_, ?_, ?_, ?_, ?_⟩, spelled⟩
    · rw [← String.toList_inj]
      simp [parts]
    · exact Schema.isDottedPath_iff_wordPath.mp dotted
    · -- Without a gap the word would be all of the rest.
      intro empty
      rw [String.ofList_eq_empty_iff.mp empty, List.nil_append] at whole
      rw [whole] at shorter
      exact Nat.lt_irrefl _ shorter
    · rw [String.toList_ofList]
      exact fun c member => isGap_iff.mp (List.mem_takeWhile_imp member)
    · cases descending with
      | false => exact .inl spelled
      | true => exact .inr spelled
  next => cases found

/-- The parser takes a directive apart as the grammar does. -/
theorem split_iff {directive path : String} {descending : Bool} :
    split? directive = some (path, descending) ↔
      ∃ gap word, Reads directive path gap word ∧ Spells (if descending then "desc" else "asc") word :=
  ⟨reads_of_split, fun ⟨_, _, reads, direction⟩ => reads.split_eq direction⟩

theorem split_eq_none_iff {directive : String} :
    split? directive = none ↔ ¬ ∃ path gap word, Reads directive path gap word := by
  rw [Option.eq_none_iff_forall_ne_some]
  constructor
  · rintro rejected ⟨path, gap, word, reads⟩
    rcases reads.direction with ascends | descends
    · exact rejected (path, false) (split_iff.mpr ⟨gap, word, reads, ascends⟩)
    · exact rejected (path, true) (split_iff.mpr ⟨gap, word, reads, descends⟩)
  · rintro unread ⟨path, descending⟩ found
    obtain ⟨gap, word, reads, _⟩ := split_iff.mp found
    exact unread ⟨path, gap, word, reads⟩

end Order

/-! ## Directives and expressions -/

variable {ρ : Type} [RecordType ρ]

theorem Expr.compile_reference {expr : Expr ρ} {name : String}
    (taken : read expr.source expr.isBoolean expr.limits = .ok (some (.string name))) (backend : Backend) :
    expr.compile backend = (resolve expr.schema name).map fun resolved => ⟨resolved.path.text, []⟩ := by
  rw [compile_eq, fragment_of_read taken, skeleton]
  cases resolve expr.schema name with
  | error error => rfl
  | ok resolved => simp [bind, Except.bind, Except.map, Sql.Fragment.text, Sql.Fragment.arguments]

namespace Order

theorem Reads.parse_eq {directive path gap word : String} (reads : Reads directive path gap word) (schema : Option ρ) :
    parse schema directive =
      (resolve schema path).map fun resolved => ⟨resolved.path, decide (Spells "desc" word)⟩ := by
  have found : split? directive = some (path, decide (Spells "desc" word)) := by
    refine split_iff.mpr ⟨gap, word, reads, ?_⟩
    by_cases descends : Spells "desc" word
    · simp [descends]
    · simpa [descends] using reads.direction.resolve_right descends
  unfold parse
  rw [found]
  cases known : resolve schema path <;> simp [known, bind, Except.bind, Except.map]

theorem Reads.parse_ne {directive path gap word : String} (reads : Reads directive path gap word) (schema : Option ρ)
    (input : String) : parse schema directive ≠ .error (.invalidOrdering input) := by
  rw [reads.parse_eq]
  intro rejected
  cases known : resolve schema path with
  | ok resolved =>
      rw [known] at rejected
      cases rejected
  | error error =>
      have unresolved : Schema.Unresolved error := Schema.resolve_resolving schema path error known
      rw [known] at rejected
      cases rejected
      cases unresolved

/-- What parsing a directive against a schema comes to. -/
structure Parses (schema : Option ρ) (directive : String) : Prop where
  /-- It is rejected as no directive iff it does not have the form of one. -/
  invalid_iff : ∀ input, parse schema directive = .error (.invalidOrdering input) ↔
    input = directive ∧ ¬ ∃ path gap word, Reads directive path gap word
  unique : ∀ path gap word path' gap' word', Reads directive path gap word → Reads directive path' gap' word' →
    path = path' ∧ gap = gap' ∧ word = word'
  /-- It orders by what its path is compiled to as an expression, and fails as that does. -/
  compiled : ∀ path gap word, Reads directive path gap word → ∀ (expr : Expr ρ) (backend : Backend),
    expr.schema = schema → Expr.read expr.source expr.isBoolean expr.limits = .ok (some (.string path)) →
      expr.compile backend = (parse schema directive).map fun order => ⟨order.path.text, []⟩
  descending_iff : ∀ path gap word, Reads directive path gap word → ∀ order, parse schema directive = .ok order →
    (order.descending = true ↔ Spells "desc" word)

/-- A directive is what the grammar says, read in the one way there is, and its path is a reference to a field. -/
theorem parse_directive (schema : Option ρ) (directive : String) : Parses schema directive where
  invalid_iff input := by
    constructor
    · intro rejected
      have unread : ¬ ∃ path gap word, Reads directive path gap word :=
        fun ⟨_, _, _, reads⟩ => reads.parse_ne schema input rejected
      rw [parse, split_eq_none_iff.mpr unread] at rejected
      cases rejected
      exact ⟨rfl, unread⟩
    · rintro ⟨rfl, unread⟩
      rw [parse, split_eq_none_iff.mpr unread]
  unique _ _ _ _ _ _ reads others := reads.unique others
  compiled path gap word reads expr backend same taken := by
    rw [Expr.compile_reference taken, reads.parse_eq, same]
    cases resolve schema path <;> rfl
  descending_iff path gap word reads order parsed := by
    rw [reads.parse_eq] at parsed
    obtain ⟨resolved, _, rfl⟩ := ok_of_map parsed
    exact decide_eq_true_iff

/-- A staircase with fields that are called as the directions are. -/
def stairs : Schema :=
  .mk "Stairs" [.record "asc" "up" false (.mk "Step" [.scalar "desc" "down" .text false false])]

theorem reads_stairs : Reads "asc.desc\t DeSc" "asc.desc" "\t " "DeSc" where
  parts := rfl
  path := Schema.isDottedPath_iff_wordPath.mp (by decide +kernel)
  apart := by decide
  blanks := by simp
  direction := by decide +kernel

/-- The path may end in the name of a direction, but a line after the direction is one too many. -/
theorem parse_directive_stairs :
    (∃ order, parse (some stairs) "asc.desc\t DeSc" = .ok order ∧ order.descending = true ∧
      Expr.compile { source := some (.value (.string "asc.desc")), schema := some stairs } .postgres =
        .ok ⟨order.path.text, []⟩) ∧
      ¬ ∃ path gap word, Reads "asc.desc\t DeSc\n" path gap word := by
  have read : Parses (some stairs) "asc.desc\t DeSc" := parse_directive (some stairs) "asc.desc\t DeSc"
  have unread : Parses (some stairs) "asc.desc\t DeSc\n" := parse_directive (some stairs) "asc.desc\t DeSc\n"
  obtain ⟨order, parsed⟩ : ∃ order, parse (some stairs) "asc.desc\t DeSc" = .ok order := ⟨_, rfl⟩
  refine ⟨⟨order, parsed, ?_, ?_⟩, ((unread.invalid_iff _).mp rfl).2⟩
  · exact (read.descending_iff _ _ _ reads_stairs order parsed).mpr (by decide +kernel)
  · rw [read.compiled _ _ _ reads_stairs _ _ rfl rfl, parsed]
    rfl

end Order

end FilterSql
