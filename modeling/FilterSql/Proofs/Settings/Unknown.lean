import FilterSql.Proofs.Json.Soundness
import FilterSql.Proofs.Json.Unambiguous
import FilterSql.Proofs.Settings.Layering

/-!
# Unknown members

Which members of a configuration file are warned of: those at its top level that are no settings, each once and in the
order of their first appearance. Members of the limits that are no settings are read over, and are not warned of unless
the top level has the same names.
-/

set_option autoImplicit false

namespace FilterSql.Settings

open Json (Assigns Begins KeepsMembers Reader SpelledAs SpellsMembers SpellsUnits SyntaxTree unitsOfText)

variable {text rest : List Char}

/-! ## Names -/

/-- The names of members that are none of the known ones. -/
def unknownNames (known : List String) (members : List (List UInt16 × SyntaxTree)) : List (List UInt16) :=
  (members.map (·.1)).filter (· ∉ known.map unitsOfText)

def unknownAtTop (members : List (List UInt16 × SyntaxTree)) : List (List UInt16) :=
  unknownNames ["limits", "backend"] members

/-- The names in the limits that are none of a limit. Limits that are no object have no names. -/
def unknownInLimits : SyntaxTree → List (List UInt16)
  | .object members => unknownNames ["max_depth", "max_input_bytes", "max_orderings"] members
  | _ => []

/-- The names that no setting has, at the top level and in the limits, in the order of the text. -/
def allUnknown (members : List (List UInt16 × SyntaxTree)) : List (List UInt16) :=
  members.flatMap fun member =>
    if member.1 = unitsOfText "limits" then unknownInLimits member.2 else unknownAtTop [member]

/-- Leaving out the names that the top level has before the limits, the unknown ones in the limits are the first of the
unknown ones that come behind them. So it is where the limits have no unknown names. -/
def Covered (members : List (List UInt16 × SyntaxTree)) : Prop :=
  ∀ before tree after, members = before ++ (unitsOfText "limits", tree) :: after →
    ((unknownInLimits tree).removeAll (unknownAtTop before)).eraseDups <+:
      ((unknownAtTop after).removeAll (unknownAtTop before)).eraseDups

/-! ## First appearances -/

section FirstAppearances

variable {α : Type} [BEq α] [LawfulBEq α]

theorem filter_eraseDups (keep : α → Bool) :
    ∀ list : List α, (list.filter keep).eraseDups = list.eraseDups.filter keep
  | [] => rfl
  | item :: list => by
      have shorter := filter_eraseDups keep (list.filter fun other => !other == item)
      rw [List.eraseDups_cons]
      cases kept : keep item with
      | true =>
          rw [List.filter_cons_of_pos kept, List.filter_cons_of_pos kept, List.eraseDups_cons, ← shorter,
            List.filter_filter, List.filter_filter]
          simp only [Bool.and_comm]
      | false =>
          have without : list.filter keep = (list.filter fun other => !other == item).filter keep := by
            rw [List.filter_filter]
            refine List.filter_congr fun other _ => ?_
            cases same : other == item with
            | true => rw [eq_of_beq same, kept, Bool.false_and]
            | false => simp
          rw [List.filter_cons_of_neg (by simp [kept]), List.filter_cons_of_neg (by simp [kept]), without, shorter]
termination_by list => list.length
decreasing_by exact Nat.lt_succ_of_le (List.length_filter_le _ _)

omit [LawfulBEq α] in
theorem removeAll_append (list others items : List α) :
    (list ++ others).removeAll items = list.removeAll items ++ others.removeAll items :=
  List.filter_append ..

theorem eraseDups_nodup : ∀ list : List α, list.eraseDups.Nodup
  | [] => by simp
  | item :: list => by
      rw [List.eraseDups_cons, List.nodup_cons]
      exact ⟨by simp, eraseDups_nodup _⟩
termination_by list => list.length
decreasing_by exact Nat.lt_succ_of_le (List.length_filter_le _ _)

/-- Items put before others do not show if they are the first of the others. -/
theorem eraseDups_append_eq_iff {items others : List α} :
    (items ++ others).eraseDups = others.eraseDups ↔ items.eraseDups <+: others.eraseDups := by
  rw [List.eraseDups_append]
  constructor
  · intro same
    exact ⟨_, same⟩
  · rintro ⟨more, same⟩
    have distinct := eraseDups_nodup others
    rw [← same] at distinct ⊢
    have apart := List.disjoint_of_nodup_append distinct
    have none : items.eraseDups.removeAll items = [] := by simp [List.removeAll]
    have all : more.removeAll items = more := by
      refine List.filter_eq_self.mpr fun item member => ?_
      simpa using fun inside => apart (List.mem_eraseDups.mpr inside) member
    rw [List.removeAll, filter_eraseDups, ← same]
    change _ ++ (items.eraseDups ++ more).removeAll items = _
    rw [removeAll_append, none, all, List.nil_append]

theorem eraseDups_insert_eq_iff {before items after : List α} :
    (before ++ (items ++ after)).eraseDups = (before ++ after).eraseDups ↔
      (items.removeAll before).eraseDups <+: (after.removeAll before).eraseDups := by
  rw [List.eraseDups_append, List.eraseDups_append, List.append_cancel_left_eq, removeAll_append,
    eraseDups_append_eq_iff]

end FirstAppearances

/-! ## Names at the top level and in the limits -/

variable {members : List (List UInt16 × SyntaxTree)}

theorem unknownAtTop_append (members others : List (List UInt16 × SyntaxTree)) :
    unknownAtTop (members ++ others) = unknownAtTop members ++ unknownAtTop others := by
  simp [unknownAtTop, unknownNames]

theorem unknownAtTop_limits (tree : SyntaxTree) : unknownAtTop [(unitsOfText "limits", tree)] = [] := by
  simp [unknownAtTop, unknownNames]

theorem allUnknown_of_noLimits (none : unitsOfText "limits" ∉ members.map (·.1)) :
    allUnknown members = unknownAtTop members := by
  induction members with
  | nil => rfl
  | cons member members ih =>
      rw [List.map_cons, List.mem_cons, not_or] at none
      have others := ih none.2
      have apart := unknownAtTop_append [member] members
      unfold allUnknown at others ⊢
      rw [List.flatMap_cons, if_neg (Ne.symm none.1), others]
      exact apart.symm

theorem eraseDups_allUnknown_insert_iff {before after : List (List UInt16 × SyntaxTree)} {tree : SyntaxTree}
    (once : ((before ++ (unitsOfText "limits", tree) :: after).map (·.1)).count (unitsOfText "limits") ≤ 1) :
    (allUnknown (before ++ (unitsOfText "limits", tree) :: after)).eraseDups =
        (unknownAtTop (before ++ (unitsOfText "limits", tree) :: after)).eraseDups ↔
      ((unknownInLimits tree).removeAll (unknownAtTop before)).eraseDups <+:
        ((unknownAtTop after).removeAll (unknownAtTop before)).eraseDups := by
  rw [List.map_append, List.map_cons, List.count_append, List.count_cons_self] at once
  have front : allUnknown before = unknownAtTop before := allUnknown_of_noLimits (List.count_eq_zero.mp (by omega))
  have back : allUnknown after = unknownAtTop after := allUnknown_of_noLimits (List.count_eq_zero.mp (by omega))
  have all : allUnknown (before ++ (unitsOfText "limits", tree) :: after) =
      unknownAtTop before ++ (unknownInLimits tree ++ unknownAtTop after) := by
    rw [← front, ← back]
    simp [allUnknown]
  have top : unknownAtTop (before ++ (unitsOfText "limits", tree) :: after) =
      unknownAtTop before ++ unknownAtTop after := by
    rw [List.append_cons, unknownAtTop_append, unknownAtTop_append, unknownAtTop_limits, List.append_nil]
  rw [all, top, eraseDups_insert_eq_iff]

theorem eraseDups_allUnknown_iff (once : (members.map (·.1)).count (unitsOfText "limits") ≤ 1) :
    (allUnknown members).eraseDups = (unknownAtTop members).eraseDups ↔ Covered members := by
  constructor
  · intro same before tree after shape
    subst shape
    exact (eraseDups_allUnknown_insert_iff once).mp same
  · intro covered
    by_cases present : unitsOfText "limits" ∈ members.map (·.1)
    · obtain ⟨⟨_, tree⟩, member, rfl⟩ := List.mem_map.mp present
      obtain ⟨before, after, rfl⟩ := List.append_of_mem member
      exact (eraseDups_allUnknown_insert_iff once).mpr (covered before tree after rfl)
    · rw [allUnknown_of_noLimits present]

/-! ## Limits that are read -/

theorem keepsMembers_limits : KeepsMembers LimitsDocument.readMember fun _ _ => True := by
  have limit : Reader.Sound LimitsDocument.readLimit := Json.readOptional_sound Json.readCount_sound
  intro state earlier key text next rest _ read
  unfold LimitsDocument.readMember at read
  split at read
  case h_1 | h_2 | h_3 =>
    obtain ⟨⟨_, behind⟩, value, read⟩ := ok_of_bind read
    cases read
    obtain ⟨-, tree, assigns⟩ := Json.assigns_of_readOnce limit value
    exact ⟨tree, assigns, trivial⟩
  case h_4 =>
    obtain ⟨after, colon, read⟩ := ok_of_bind read
    obtain ⟨behind, skipped, read⟩ := ok_of_bind read
    cases read
    obtain ⟨tree, begins⟩ := Json.exists_begins_of_skipValue skipped
    exact ⟨tree, ⟨after, Json.blank_of_readColon colon, begins⟩, trivial⟩

theorem begins_of_readPlace {index : Nat} {limit : Option Nat}
    (read : LimitsDocument.readPlace index text = .ok (limit, rest)) :
    ∃ start tree, Json.Separated (index = 0) text start ∧ Begins tree start rest := by
  unfold LimitsDocument.readPlace at read
  obtain ⟨⟨found, start⟩, next, read⟩ := ok_of_bind read
  have separated := Json.separated_of_nextItem next
  cases found with
  | false => cases read
  | true =>
      obtain ⟨tree, begins⟩ := Json.readOptional_sound Json.readCount_sound _ _ _ read
      exact ⟨start, tree, separated, begins⟩

theorem items_of_readPlaces {document : LimitsDocument} (read : LimitsDocument.readPlaces text = .ok (document, rest)) :
    ∃ items, Json.SpellsItems true items text rest := by
  unfold LimitsDocument.readPlaces at read
  obtain ⟨⟨_, one⟩, first, read⟩ := ok_of_bind read
  obtain ⟨⟨_, two⟩, second, read⟩ := ok_of_bind read
  obtain ⟨⟨_, three⟩, third, read⟩ := ok_of_bind read
  obtain ⟨behind, closed, read⟩ := ok_of_bind read
  cases read
  obtain ⟨_, _, separated, begins⟩ := begins_of_readPlace first
  obtain ⟨_, _, separatedSecond, beginsSecond⟩ := begins_of_readPlace second
  obtain ⟨_, _, separatedThird, beginsThird⟩ := begins_of_readPlace third
  have items := beginsThird.item separatedThird (.close (Json.blank_of_closeList closed))
  exact ⟨_, begins.item separated (beginsSecond.item separatedSecond items)⟩

theorem LimitsDocument.reader_sound (depth : Nat) : Reader.Sound (LimitsDocument.reader depth) := by
  intro document text rest read
  obtain ⟨c, after, shape, read⟩ := Json.exists_head_of_readFirst read
  dsimp only at read
  split at read
  next opening =>
    subst opening
    split at read
    next => cases read
    next =>
      obtain ⟨items, spelled⟩ := items_of_readPlaces read
      exact ⟨_, Json.begins_of_skipBlank shape (.list spelled)⟩
  next =>
    split at read
    next opening =>
      subst opening
      split at read
      next => cases read
      next =>
        obtain ⟨⟨state, behind⟩, object, read⟩ := ok_of_bind read
        cases read
        obtain ⟨members, spelled, -⟩ := Json.members_of_readObject keepsMembers_limits trivial object
        exact ⟨_, Json.begins_of_skipBlank shape (.object spelled)⟩
    next => cases read

/-! ## Documents that are read -/

/-- What is known of a document when some of its members have been read: the unknown names among them, and whether the
limits are. -/
structure Document.Partial.Tells (read : Document.Partial) (members : List (List UInt16 × SyntaxTree)) : Prop where
  unknown : read.unknown.map unitsOfText = (unknownAtTop members).eraseDups
  limits : (members.map (·.1)).count (unitsOfText "limits") = if read.limits.isSome then 1 else 0

theorem Document.Partial.tells_empty : Tells {} [] := by
  constructor <;> rfl

/-- A name that is there already is not listed again. -/
theorem unknown_insert {unknown : List String} {names : List (List UInt16)} (key : String)
    (told : unknown.map unitsOfText = names.eraseDups) :
    (if unknown.contains key then unknown else unknown ++ [key]).map unitsOfText =
      (names ++ [unitsOfText key]).eraseDups := by
  have injective : Function.Injective unitsOfText := fun _ _ => Json.unitsOfText_inj.mp
  have listed : unknown.contains key = true ↔ unitsOfText key ∈ names := by
    rw [List.contains_iff_mem, ← List.mem_map_of_injective injective, told, List.mem_eraseDups]
  rw [List.eraseDups_append, ← told]
  split
  next present => simp [List.removeAll, listed.mp present]
  next absent => simp [List.removeAll, List.eraseDups_cons, mt listed.mpr absent]

theorem Document.Partial.Tells.limitsRead {read : Partial} {members : List (List UInt16 × SyntaxTree)}
    (tells : read.Tells members) (unset : read.limits = none) (limits : Option LimitsDocument) (tree : SyntaxTree) :
    Tells { read with limits := some limits } (members ++ [(unitsOfText "limits", tree)]) where
  unknown := by
    rw [unknownAtTop_append, unknownAtTop_limits, List.append_nil]
    exact tells.unknown
  limits := by
    simp [tells.limits, unset]

theorem Document.Partial.Tells.backendRead {read : Partial} {members : List (List UInt16 × SyntaxTree)}
    (tells : read.Tells members) (chosen : Option Backend) (tree : SyntaxTree) :
    Tells { read with backend := some chosen } (members ++ [(unitsOfText "backend", tree)]) where
  unknown := by
    have setting : unknownAtTop [(unitsOfText "backend", tree)] = [] := by
      simp [unknownAtTop, unknownNames]
    rw [unknownAtTop_append, setting, List.append_nil]
    exact tells.unknown
  limits := by
    simp [tells.limits, Json.unitsOfText_inj]

theorem Document.Partial.Tells.other {read : Partial} {members : List (List UInt16 × SyntaxTree)}
    (tells : read.Tells members) {key : String} (noLimits : key ≠ "limits") (noBackend : key ≠ "backend")
    (tree : SyntaxTree) :
    Tells { read with unknown := if read.unknown.contains key then read.unknown else read.unknown ++ [key] }
      (members ++ [(unitsOfText key, tree)]) where
  unknown := by
    have noSetting : unknownAtTop [(unitsOfText key, tree)] = [unitsOfText key] := by
      simp [unknownAtTop, unknownNames, Json.unitsOfText_inj, noLimits, noBackend]
    rw [unknownAtTop_append, noSetting]
    exact unknown_insert key tells.unknown
  limits := by
    simp [tells.limits, Json.unitsOfText_inj, noLimits]

theorem keepsMembers_document (depth : Nat) : KeepsMembers (Document.readMember depth) Document.Partial.Tells := by
  intro state earlier key text next rest tells read
  unfold Document.readMember at read
  split at read
  next =>
    obtain ⟨⟨_, behind⟩, value, read⟩ := ok_of_bind read
    cases read
    obtain ⟨unset, tree, assigns⟩ :=
      Json.assigns_of_readOnce (Json.readOptional_sound (LimitsDocument.reader_sound depth)) value
    exact ⟨tree, assigns, tells.limitsRead unset _ tree⟩
  next =>
    obtain ⟨⟨_, behind⟩, value, read⟩ := ok_of_bind read
    cases read
    obtain ⟨-, tree, assigns⟩ :=
      Json.assigns_of_readOnce (Json.readOptional_sound (Json.readVariant_sound _ depth)) value
    exact ⟨tree, assigns, tells.backendRead _ tree⟩
  next noLimits noBackend =>
    obtain ⟨after, colon, read⟩ := ok_of_bind read
    obtain ⟨⟨_, behind⟩, value, read⟩ := ok_of_bind read
    cases read
    obtain ⟨tree, begins⟩ := Json.readValue_sound depth _ _ _ value
    exact ⟨tree, ⟨after, Json.blank_of_readColon colon, begins⟩, tells.other noLimits noBackend tree⟩

/-- A document is read from the spelling of an object, whose limits are there once at most. -/
theorem members_of_parse {content : String} {document : Document} (parsed : Document.parse content = .ok document) :
    ∃ members, SpelledAs (.object members) content.toList ∧
      document.unknown.map unitsOfText = (unknownAtTop members).eraseDups ∧
      (members.map (·.1)).count (unitsOfText "limits") ≤ 1 := by
  obtain ⟨behind, read, ended⟩ := Json.readAll_ok_iff.mp parsed
  obtain ⟨c, after, shape, read⟩ := Json.exists_head_of_readFirst read
  dsimp only at read
  split at read
  next opening =>
    subst opening
    obtain ⟨⟨state, behind⟩, object, read⟩ := ok_of_bind read
    cases read
    obtain ⟨members, spelled, tells⟩ :=
      Json.members_of_readObject (keepsMembers_document _) Document.Partial.tells_empty object
    refine ⟨members, ⟨_, behind, Json.blank_of_skipBlank shape, .object spelled, Json.blank_of_skipBlank ended⟩,
      tells.unknown, ?_⟩
    rw [tells.limits]
    split <;> omega
  next => cases read

/-! ## A misspelt limit -/

def fileOf (content : String) : Files := fun path =>
  if path = defaultFile then .text content else .missing

def five : Json.Numeral where
  negative := false
  whole := ['5']
  fraction := []
  exponent := []
  wholeDigits := ⟨by simp, by simp⟩
  leading := by simp
  fractionDigits := .inl rfl
  exponentDigits := .inl rfl

/-- The greatest depth, misspelt. -/
def misspelt : List UInt16 × SyntaxTree :=
  (unitsOfText "max_dept", .number five)

def misspeltLimits : List UInt16 × SyntaxTree :=
  (unitsOfText "limits", .object [misspelt])

def misspeltText : String :=
  "\x7b\"limits\":\x7b\"max_dept\":5\x7d\x7d"

/-- The same name at the top level behind the limits. -/
def repeatedText : String :=
  "\x7b\"limits\":\x7b\"max_dept\":5\x7d,\"max_dept\":5\x7d"

theorem spellsUnits_plain {chars : List Char} (plain : chars.all fun c => c != '"' && c != '\\' && 0x20 ≤ c.toNat)
    (rest : List Char) : SpellsUnits (chars.flatMap Json.unitsOf) (chars ++ '"' :: rest) rest := by
  induction chars with
  | nil => exact .close rest
  | cons c chars ih =>
      simp only [List.all_cons, Bool.and_eq_true, bne_iff_ne, decide_eq_true_eq] at plain
      obtain ⟨⟨⟨noQuote, noEscape⟩, printable⟩, others⟩ := plain
      exact .plain noQuote noEscape printable (ih others)

/-- The member and the closing bracket behind it. -/
def misspeltChars (rest : List Char) : List Char :=
  '"' :: (['m', 'a', 'x', '_', 'd', 'e', 'p', 't'] ++ '"' :: ':' :: '5' :: '\x7d' :: rest)

def limitsChars (rest : List Char) : List Char :=
  '"' :: (['l', 'i', 'm', 'i', 't', 's'] ++ '"' :: ':' :: '\x7b' :: misspeltChars rest)

theorem spellsMembers_misspelt {first : Bool} (separated : Json.Separated first text (misspeltChars rest)) :
    SpellsMembers first [misspelt] text rest := by
  have name : unitsOfText "max_dept" = ['m', 'a', 'x', '_', 'd', 'e', 'p', 't'].flatMap Json.unitsOf := by
    decide +kernel
  rw [misspelt, name]
  exact .member separated (spellsUnits_plain (by decide) _) (.none _) (.none _) (.number five _) (.close (.none _))

theorem spellsMembers_misspeltLimits {members : List (List UInt16 × SyntaxTree)} {behind : List Char}
    (others : SpellsMembers false members behind rest) :
    SpellsMembers true (misspeltLimits :: members) (limitsChars behind) rest := by
  have name : unitsOfText "limits" = ['l', 'i', 'm', 'i', 't', 's'].flatMap Json.unitsOf := by decide +kernel
  have inner : SpellsMembers true [misspelt] (misspeltChars behind) behind := spellsMembers_misspelt (.start (.none _))
  rw [misspeltLimits, name]
  exact .member (.start (.none _)) (spellsUnits_plain (by decide) _) (.none _) (.none _) (.object inner) others

theorem spelledAs_misspeltText : SpelledAs (.object [misspeltLimits]) misspeltText.toList := by
  have chars : misspeltText.toList = '\x7b' :: limitsChars ['\x7d'] := by decide +kernel
  rw [chars]
  exact ⟨_, [], .none _, .object (spellsMembers_misspeltLimits (.close (.none _))), .none _⟩

theorem spelledAs_repeatedText : SpelledAs (.object [misspeltLimits, misspelt]) repeatedText.toList := by
  have chars : repeatedText.toList = '\x7b' :: limitsChars (',' :: misspeltChars []) := by decide +kernel
  have behind : SpellsMembers false [misspelt] (',' :: misspeltChars []) [] :=
    spellsMembers_misspelt (.comma (.none _) (.none _))
  rw [chars]
  exact ⟨_, [], .none _, .object (spellsMembers_misspeltLimits behind), .none _⟩

/-! ## The warning -/

/-- The warning about names. -/
def warningOf (names : List String) : Option String :=
  if names.isEmpty then none
  else some ("Unknown fields in config file (possible typos) fields=" ++ ", ".intercalate names)

variable {overrides : Overrides} {files : Files}

theorem warning?_of_document {file : Option String} {document : Document} (inUse : InUse overrides files file)
    (contained : Contains files file document) : warning? overrides files = warningOf document.unknown := by
  rw [warning?, document_ok_iff.mpr ⟨file, inUse, contained⟩]
  rfl

/-- Of a configuration file that is loaded, the names are warned of that its top level has and no setting, each once and
in the order of their first appearance. These are all names that no setting has if and only if those in the limits are
covered. Without a file there is no warning. -/
theorem warning_exact {settings : Settings} (loaded : load overrides files = .ok settings) :
    (InUse overrides files none → warning? overrides files = none) ∧
    ∀ path, InUse overrides files (some path) → ∃ content, files path = .text content ∧
      (∃ members, SpelledAs (.object members) content.toList) ∧
      ∀ members, SpelledAs (.object members) content.toList → ∃ names, warning? overrides files = warningOf names ∧
        names.map unitsOfText = (unknownAtTop members).eraseDups ∧
        (names.map unitsOfText = (allUnknown members).eraseDups ↔ Covered members) := by
  obtain ⟨file, document, inUse, contained, -⟩ := load_ok_iff.mp loaded
  have same : ∀ other, InUse overrides files other → other = file := fun other chosen =>
    Except.ok.inj ((configFile?_ok_iff.mpr chosen).symm.trans (configFile?_ok_iff.mpr inUse))
  have warned := warning?_of_document inUse contained
  constructor
  · intro chosen
    obtain rfl := same _ chosen
    cases contained with
    | nothing => exact warned
  · intro path chosen
    obtain rfl := same _ chosen
    cases contained with
    | text entry parsed =>
        obtain ⟨members, spelled, named, once⟩ := members_of_parse parsed
        refine ⟨_, entry, ⟨members, spelled⟩, fun others spelledToo => ?_⟩
        cases spelledToo.unique spelled
        refine ⟨document.unknown, warned, named, ?_⟩
        rw [named, eq_comm]
        exact eraseDups_allUnknown_iff once

theorem warning_exact_repeated :
    load {} (fileOf repeatedText) = .ok {} ∧ ∃ names, warning? {} (fileOf repeatedText) = warningOf names ∧
      names.map unitsOfText = (allUnknown [misspeltLimits, misspelt]).eraseDups := by
  have loaded : load {} (fileOf repeatedText) = .ok {} := by decide +kernel
  have covered : Covered [misspeltLimits, misspelt] :=
    (eraseDups_allUnknown_iff (by decide +kernel)).mp (by decide +kernel)
  obtain ⟨content, entry, -, named⟩ := (warning_exact loaded).2 defaultFile (.found rfl (by decide +kernel))
  obtain rfl : repeatedText = content := FileEntry.text.inj entry
  obtain ⟨names, warned, -, all⟩ := named _ spelledAs_repeatedText
  exact ⟨loaded, names, warned, all.mpr covered⟩

/-- A misspelt limit is accepted without a warning. -/
theorem warning_misses_limits :
    load {} (fileOf misspeltText) = .ok {} ∧ SpelledAs (.object [misspeltLimits]) misspeltText.toList ∧
      unitsOfText "max_dept" ∈ allUnknown [misspeltLimits] ∧ warning? {} (fileOf misspeltText) = none :=
  ⟨by decide +kernel, spelledAs_misspeltText, by decide +kernel, by decide +kernel⟩

end FilterSql.Settings
