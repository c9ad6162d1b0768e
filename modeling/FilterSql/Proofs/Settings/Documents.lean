import FilterSql.Proofs.Json.Spelled
import FilterSql.Settings.Document
import Mathlib.Data.List.Nodup

/-!
# Reading configuration documents

However a configuration file is written, its document has the settings of its entries. An entry that is null counts as
one left out.
-/

set_option autoImplicit false

namespace FilterSql.Settings

open Json (Blank EndsNumber Numeral Plain Reader ReadsEntries SpelledAs Spells SyntaxTree unitsOfText)

variable {text rest : List Char}

/-! ## What entries set -/

section Fold

variable {σ ε ν : Type} {step : σ → ε → σ} (get : σ → Option ν) (set : ε → Option ν)
  (stepped : ∀ state entry, get (step state entry) = (set entry <|> get state)) {entries : List ε}
  (once : entries.Pairwise fun entry other => (set entry).isSome = true → set other = none) {state : σ} {value : ν}

include stepped once

theorem foldl_get_iff_or :
    get (entries.foldl step state) = some value ↔
      (∃ entry ∈ entries, set entry = some value) ∨ (∀ entry ∈ entries, set entry = none) ∧ get state = some value := by
  induction entries generalizing state with
  | nil => simp
  | cons entry entries ih =>
      obtain ⟨alone, once⟩ := List.pairwise_cons.mp once
      rw [List.foldl_cons, ih once, stepped]
      cases own : set entry with
      | none => simp [own]
      | some found =>
          have others : ∀ other ∈ entries, set other = none := fun other later => alone other later (by simp [own])
          have noOther : ¬∃ other ∈ entries, set other = some value := by
            rintro ⟨other, later, given⟩
            rw [others other later] at given
            cases given
          simpa [own, noOther] using fun (_ : found = value) => others

/-- What entries set one after the other, if none is set twice. -/
theorem foldl_get_iff (start : get state = none) :
    get (entries.foldl step state) = some value ↔ ∃ entry ∈ entries, set entry = some value := by
  rw [foldl_get_iff_or get set stepped once, start]
  simp

end Fold

theorem getD_none_iff {α : Type} {given : Option (Option α)} {value : α} :
    given.getD none = some value ↔ given = some (some value) := by
  cases given <;> simp

/-! ## Limits -/

/-- A limit as it is written. -/
structure Count where
  numeral : Numeral
  whole : numeral.tail = []
  unsigned : numeral.negative = false
  bounded : numeral.significand ≤ Json.maxSignificand

inductive LimitName where
  | maxDepth
  | maxInputBytes
  | maxOrderings
  deriving DecidableEq

/-- A limit in a configuration file, or null. -/
structure LimitEntry where
  name : LimitName
  count : Option Count

namespace LimitName

def key : LimitName → String
  | maxDepth => "max_depth"
  | maxInputBytes => "max_input_bytes"
  | maxOrderings => "max_orderings"

theorem key_inj {name other : LimitName} : name.key = other.key ↔ name = other := by
  cases name <;> cases other <;> decide

theorem key_plain (name : LimitName) : Plain name.key.toList := by
  cases name <;> simp [Plain, key]

end LimitName

namespace LimitEntry

def tree (entry : LimitEntry) : SyntaxTree :=
  match entry.count with
  | some count => .number count.numeral
  | none => .null

def value (entry : LimitEntry) : Option Nat :=
  entry.count.map fun count => count.numeral.significand

/-- What an entry makes of a limit, if it is the entry of that limit. -/
def given (name : LimitName) (entry : LimitEntry) : Option (Option Nat) :=
  if entry.name = name then some entry.value else none

theorem given_iff {name : LimitName} {entry : LimitEntry} {limit : Nat} :
    entry.given name = some (some limit) ↔
      ∃ count : Count, entry = ⟨name, some count⟩ ∧ count.numeral.significand = limit := by
  obtain ⟨own, count⟩ := entry
  cases count <;> simp [given, value]

end LimitEntry

namespace LimitsDocument

def get (document : LimitsDocument) : LimitName → Option Nat
  | .maxDepth => document.maxDepth
  | .maxInputBytes => document.maxInputBytes
  | .maxOrderings => document.maxOrderings

namespace Partial

def get (read : Partial) : LimitName → Option (Option Nat)
  | .maxDepth => read.maxDepth
  | .maxInputBytes => read.maxInputBytes
  | .maxOrderings => read.maxOrderings

def put (read : Partial) (entry : LimitEntry) : Partial :=
  match entry.name with
  | .maxDepth => { read with maxDepth := some entry.value }
  | .maxInputBytes => { read with maxInputBytes := some entry.value }
  | .maxOrderings => { read with maxOrderings := some entry.value }

end Partial

end LimitsDocument

theorem readCount_of_count (count : Count) (ends : EndsNumber rest) (blank : Blank text (count.numeral.chars ++ rest)) :
    Json.readCount text = .ok (count.numeral.significand, rest) := by
  obtain ⟨c, behind, shape, starts, read⟩ := count.numeral.exists_readScalar rest
  have value : count.numeral.value = count.numeral.significand := by
    rw [Numeral.value, count.unsigned]
    rfl
  have bounded := count.bounded
  unfold Json.maxSignificand at bounded
  have found := (count.numeral.readNumber_integer_iff ends).mpr
    ⟨⟨count.whole, by simp [count.unsigned], by omega, by omega, value⟩, rfl⟩
  rw [found] at read
  rw [shape] at blank
  unfold Json.readCount Json.readFirst
  rw [blank.skipBlank_cons (Json.noBlank_of_starts starts)]
  simp only [starts, if_true, read]
  rfl

theorem readOptional_null {α : Type} {value : Reader α} {start behind : List Char} (blank : Blank text start)
    (spelled : Spells .null start behind) : Json.readOptional value text = .ok (none, behind) := by
  cases spelled with
  | null _ =>
      rw [Json.readOptional, blank.skipBlank_cons rfl]
      rfl

theorem readOptional_some {α : Type} {value : Reader α} {found : α} {c : Char} {after behind : List Char}
    (blank : Blank text (c :: after)) (noBlank : Json.isBlank c = false) (noNull : c ≠ 'n')
    (read : value text = .ok (found, behind)) : Json.readOptional value text = .ok (some found, behind) := by
  rw [Json.readOptional, blank.skipBlank_cons noBlank]
  split
  next same => exact absurd (List.cons.inj same).1 noNull
  next => simp [read, bind, Except.bind]

theorem readLimit_of_entry {entry : LimitEntry} {start behind : List Char} (blank : Blank text start)
    (spelled : Spells entry.tree start behind) (ends : EndsNumber behind) :
    LimitsDocument.readLimit text = .ok (entry.value, behind) := by
  obtain ⟨name, count⟩ := entry
  cases count with
  | none => exact readOptional_null blank spelled
  | some count =>
      cases spelled with
      | number _ _ =>
          have read := readCount_of_count count ends blank
          obtain ⟨c, after, shape, starts, -⟩ := count.numeral.exists_readScalar behind
          rw [shape] at blank
          exact readOptional_some blank (Json.noBlank_of_starts starts) (Json.ne_of_starts starts (by decide) rfl) read

/-- A limit that has not been set yet. -/
def LimitsDocument.Partial.Free (read : Partial) (key : String) : Prop :=
  ∀ name : LimitName, name.key = key → read.get name = none

theorem LimitsDocument.Partial.free_empty (key : String) : Free {} key := by
  intro name _
  cases name <;> rfl

theorem readMember_limit (read : LimitsDocument.Partial) (entry : LimitEntry) {start behind : List Char}
    (free : read.get entry.name = none) (colon : Blank text (':' :: rest)) (blank : Blank rest start)
    (spelled : Spells entry.tree start behind) (ends : EndsNumber behind) :
    LimitsDocument.readMember read entry.name.key text = .ok (read.put entry, behind) := by
  have value := readLimit_of_entry blank spelled ends
  have after := Json.readColon_of_blank colon
  obtain ⟨name, count⟩ := entry
  cases name <;>
    (simp only [LimitsDocument.Partial.get] at free
     simp [LimitsDocument.readMember, LimitName.key, Json.readOnce, free, after, value, bind, Except.bind,
      LimitsDocument.Partial.put])

theorem LimitsDocument.Partial.get_put (read : Partial) (entry : LimitEntry) (name : LimitName) :
    (read.put entry).get name = (entry.given name <|> read.get name) := by
  obtain ⟨own, count⟩ := entry
  cases own <;> cases name <;> rfl

theorem reads_limits :
    ReadsEntries (fun entry : LimitEntry => entry.name.key) LimitEntry.tree LimitsDocument.readMember
      LimitsDocument.Partial.put LimitsDocument.Partial.Free where
  plain entry := entry.name.key_plain
  reads free colon blank spelled ends := readMember_limit _ _ (free _ rfl) colon blank spelled ends
  keeps := by
    rintro state entry key free other name rfl
    have differs : entry.name ≠ name := fun same => other (congrArg LimitName.key same)
    rw [LimitsDocument.Partial.get_put, LimitEntry.given, if_neg differs]
    exact free name rfl

/-! ## Entries -/

/-- The limits in a configuration file, each at most once. -/
structure Section where
  entries : List LimitEntry
  distinct : (entries.map (·.name)).Nodup

namespace Section

def tree (limits : Section) : SyntaxTree :=
  .object (limits.entries.map fun entry => (unitsOfText entry.name.key, entry.tree))

def document (limits : Section) : LimitsDocument :=
  (limits.entries.foldl LimitsDocument.Partial.put {}).complete

theorem document_get_iff (limits : Section) (name : LimitName) (limit : Nat) :
    limits.document.get name = some limit ↔
      ∃ count : Count, ⟨name, some count⟩ ∈ limits.entries ∧ count.numeral.significand = limit := by
  have completed : limits.document.get name =
      ((limits.entries.foldl LimitsDocument.Partial.put {}).get name).getD none := by
    cases name <;> rfl
  have once :
      limits.entries.Pairwise fun entry other => (entry.given name).isSome = true → other.given name = none := by
    refine (List.pairwise_map.mp limits.distinct).imp fun differs set => if_neg fun same => differs ?_
    unfold LimitEntry.given at set
    split at set
    next own => exact own.trans same.symm
    next => cases set
  have empty : LimitsDocument.Partial.get {} name = none := LimitsDocument.Partial.free_empty name.key name rfl
  rw [completed, getD_none_iff,
    foldl_get_iff (LimitsDocument.Partial.get · name) (LimitEntry.given name)
      (fun read entry => read.get_put entry name) once empty]
  constructor
  · rintro ⟨entry, member, set⟩
    obtain ⟨count, rfl, same⟩ := LimitEntry.given_iff.mp set
    exact ⟨count, member, same⟩
  · rintro ⟨count, member, same⟩
    exact ⟨_, member, LimitEntry.given_iff.mpr ⟨count, rfl, same⟩⟩

end Section

/-- A setting, or null, in a configuration file. -/
inductive Entry where
  | limits (limits : Option Section)
  | backend (backend : Option Backend)

namespace Entry

def key : Entry → String
  | limits _ => "limits"
  | backend _ => "backend"

def tree : Entry → SyntaxTree
  | .limits (some held) => held.tree
  | .backend (some chosen) => .string (unitsOfText chosen.name)
  | _ => .null

end Entry

/-- The settings in a configuration file, each at most once. -/
structure Entries where
  list : List Entry
  distinct : (list.map Entry.key).Nodup

namespace Entries

def tree (entries : Entries) : SyntaxTree :=
  .object (entries.list.map fun entry => (unitsOfText entry.key, entry.tree))

/-- The entries set a limit. -/
def Limits (entries : Entries) (name : LimitName) (limit : Nat) : Prop :=
  ∃ held : Section, .limits (some held) ∈ entries.list ∧
    ∃ count : Count, ⟨name, some count⟩ ∈ held.entries ∧ count.numeral.significand = limit

end Entries

/-! ## Documents -/

theorem readLimits_of_section {limits : Section} {start behind : List Char} {depth : Nat} (deep : depth ≠ 0)
    (blank : Blank text start) (spelled : Spells limits.tree start behind) :
    LimitsDocument.reader depth text = .ok (limits.document, behind) := by
  cases spelled with
  | object members =>
      have distinct : (limits.entries.map fun entry => entry.name.key).Nodup := by
        have keys := List.Nodup.map (fun _ _ => LimitName.key_inj.mp) limits.distinct
        rwa [List.map_map] at keys
      have read :=
        Json.readObject_spelled reads_limits distinct (fun _ _ => LimitsDocument.Partial.free_empty _) members
      unfold LimitsDocument.reader Json.readFirst
      rw [blank.skipBlank_cons rfl]
      simp [deep, read, bind, Except.bind, Section.document]

theorem readVariant_of_backend (backend : Backend) {start behind : List Char} (depth : Nat)
    (blank : Blank text start) (spelled : Spells (.string (unitsOfText backend.name)) start behind) :
    Json.readVariant Backend.choices depth text = .ok (backend, behind) := by
  have plain : Plain backend.name.toList := by
    cases backend <;> simp [Plain, Backend.name]
  have chosen : Json.variant Backend.choices backend.name = .ok backend := by
    cases backend <;> rfl
  cases spelled with
  | string units =>
      have read := Json.readString_plain plain units
      unfold Json.readVariant Json.readText Json.readFirst
      rw [blank.skipBlank_cons rfl]
      simp [Json.skipBlank, Json.isBlank, read, chosen, bind, Except.bind]

namespace Document

namespace Partial

def put (read : Partial) : Entry → Partial
  | .limits held => { read with limits := some (held.map Section.document) }
  | .backend chosen => { read with backend := some chosen }

/-- A setting that has not been made yet. -/
def Free (read : Partial) (key : String) : Prop :=
  (key = "limits" → read.limits = none) ∧ (key = "backend" → read.backend = none)

end Partial

theorem readMember_entry (read : Partial) (entry : Entry) {depth : Nat} (deep : depth ≠ 0) {start behind : List Char}
    (free : read.Free entry.key) (colon : Blank text (':' :: rest)) (blank : Blank rest start)
    (spelled : Spells entry.tree start behind) :
    readMember depth read entry.key text = .ok (read.put entry, behind) := by
  have after := Json.readColon_of_blank colon
  cases entry with
  | limits held =>
      have value : Json.readOptional (LimitsDocument.reader depth) rest = .ok (held.map Section.document, behind) := by
        cases held with
        | none => exact readOptional_null blank spelled
        | some held =>
            have limits := readLimits_of_section deep blank spelled
            cases spelled with
            | object _ => exact readOptional_some blank rfl (by decide) limits
      simp [readMember, Entry.key, Json.readOnce, free.1 rfl, after, value, bind, Except.bind, Partial.put]
  | backend chosen =>
      have value : Json.readOptional (Json.readVariant Backend.choices depth) rest = .ok (chosen, behind) := by
        cases chosen with
        | none => exact readOptional_null blank spelled
        | some chosen =>
            have named := readVariant_of_backend chosen depth blank spelled
            cases spelled with
            | string _ => exact readOptional_some blank rfl (by decide) named
      simp [readMember, Entry.key, Json.readOnce, free.2 rfl, after, value, bind, Except.bind, Partial.put]

theorem reads_entries {depth : Nat} (deep : depth ≠ 0) :
    ReadsEntries Entry.key Entry.tree (readMember depth) Partial.put Partial.Free where
  plain entry := by
    cases entry <;> simp [Plain, Entry.key]
  reads free colon blank spelled _ := readMember_entry _ _ deep free colon blank spelled
  keeps := by
    rintro state entry name ⟨limits, backend⟩ other
    cases entry with
    | limits held => exact ⟨fun same => absurd same.symm other, backend⟩
    | backend chosen => exact ⟨limits, fun same => absurd same.symm other⟩

/-- The limit that a document sets. -/
def limit? (document : Document) (name : LimitName) : Option Nat :=
  document.limits.bind (·.get name)

/-- What an entry makes the limits. -/
def limitsOf : Entry → Option (Option LimitsDocument)
  | .limits held => some (held.map Section.document)
  | .backend _ => none

def backendOf : Entry → Option (Option Backend)
  | .limits _ => none
  | .backend chosen => some chosen

theorem limits_put (read : Partial) (entry : Entry) :
    (read.put entry).limits = (limitsOf entry <|> read.limits) := by
  cases entry <;> rfl

theorem backend_put (read : Partial) (entry : Entry) :
    (read.put entry).backend = (backendOf entry <|> read.backend) := by
  cases entry <;> rfl

theorem limits_once (entries : Entries) :
    entries.list.Pairwise fun entry other => (limitsOf entry).isSome = true → limitsOf other = none := by
  refine (List.pairwise_map.mp entries.distinct).imp ?_
  rintro (_ | _) (_ | _) differs set
  · exact absurd rfl differs
  · rfl
  · cases set
  · rfl

theorem backend_once (entries : Entries) :
    entries.list.Pairwise fun entry other => (backendOf entry).isSome = true → backendOf other = none := by
  refine (List.pairwise_map.mp entries.distinct).imp ?_
  rintro (_ | _) (_ | _) differs set
  · rfl
  · cases set
  · rfl
  · exact absurd rfl differs

theorem complete_limit?_iff {entries : Entries} {name : LimitName} {limit : Nat} :
    (entries.list.foldl Partial.put {}).complete.limit? name = some limit ↔ entries.Limits name limit := by
  have read : ∀ limits, (entries.list.foldl Partial.put {}).limits = some limits ↔
      ∃ entry ∈ entries.list, limitsOf entry = some limits :=
    fun _ => foldl_get_iff Partial.limits limitsOf limits_put (limits_once entries) rfl
  unfold limit? Partial.complete Entries.Limits
  simp only [Option.bind_eq_some_iff, getD_none_iff, read]
  constructor
  · rintro ⟨limits, ⟨entry, member, set⟩, got⟩
    cases entry with
    | limits held =>
        obtain ⟨held, rfl, rfl⟩ := Option.map_eq_some_iff.mp (Option.some.inj set)
        exact ⟨held, member, (held.document_get_iff name limit).mp got⟩
    | backend _ => cases set
  · rintro ⟨held, member, got⟩
    exact ⟨held.document, ⟨_, member, rfl⟩, (held.document_get_iff name limit).mpr got⟩

theorem complete_backend_iff {entries : Entries} {backend : Backend} :
    (entries.list.foldl Partial.put {}).complete.backend = some backend ↔ .backend (some backend) ∈ entries.list := by
  have read : ∀ chosen, (entries.list.foldl Partial.put {}).backend = some chosen ↔
      ∃ entry ∈ entries.list, backendOf entry = some chosen :=
    fun _ => foldl_get_iff Partial.backend backendOf backend_put (backend_once entries) rfl
  unfold Partial.complete
  simp only [getD_none_iff, read]
  constructor
  · rintro ⟨entry, member, set⟩
    cases entry with
    | limits _ => cases set
    | backend chosen =>
        obtain rfl := Option.some.inj set
        exact member
  · intro member
    exact ⟨_, member, rfl⟩

/-- However entries are written, they are read, and each counts for what it is. -/
theorem parse_spelled {entries : Entries} {text : String} (spelled : SpelledAs entries.tree text.toList) :
    ∃ document, Document.parse text = .ok document ∧
      (∀ name limit, document.limit? name = some limit ↔ entries.Limits name limit) ∧
      ∀ backend, document.backend = some backend ↔ .backend (some backend) ∈ entries.list := by
  refine ⟨(entries.list.foldl Partial.put {}).complete, ?_, fun _ _ => complete_limit?_iff,
    fun _ => complete_backend_iff⟩
  obtain ⟨start, behind, before, spells, after⟩ := spelled
  cases spells with
  | object members =>
      have deep : Json.maxNesting - 1 ≠ 0 := by decide
      have free : ∀ entry ∈ entries.list, Partial.Free {} entry.key := fun _ _ => ⟨fun _ => rfl, fun _ => rfl⟩
      have read := Json.readObject_spelled (reads_entries deep) entries.distinct free members
      refine Json.readAll_ok_iff.mpr ⟨behind, ?_, after.skipBlank_eq⟩
      unfold reader Json.readFirst
      rw [before.skipBlank_cons rfl]
      change (Json.readObject (readMember (Json.maxNesting - 1)) {} _ >>= _) = _
      rw [read]
      rfl

end Document

end FilterSql.Settings
