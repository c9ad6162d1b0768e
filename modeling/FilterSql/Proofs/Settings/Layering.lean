import FilterSql.Proofs.Failure
import FilterSql.Proofs.Settings.Documents
import FilterSql.Settings.Basic

/-!
# Layers of settings

Where a setting comes from, and when settings are refused. A configuration file that is named takes the place of the
default one; each setting is taken for itself from the first layer that has it; only what is taken is judged.
-/

set_option autoImplicit false

namespace FilterSql.Settings

/-! ## The configuration file -/

/-- The configuration file in use, if there is one. The default one is looked for where none is named. -/
inductive InUse (overrides : Overrides) (files : Files) : Option String → Prop where
  | named {path : String} :
      overrides.config = some path → (files path).exists? = true → InUse overrides files (some path)
  | found :
      overrides.config = none → (files defaultFile).exists? = true → InUse overrides files (some defaultFile)
  | nothing :
      overrides.config = none → (files defaultFile).exists? = false → InUse overrides files none

/-- What the configuration file in use says. -/
inductive Contains (files : Files) : Option String → Document → Prop where
  | nothing : Contains files none {}
  | text {path content : String} {document : Document} :
      files path = .text content → Document.parse content = .ok document → Contains files (some path) document

variable {overrides : Overrides} {files : Files}

theorem configFile?_ok_iff {file : Option String} :
    configFile? overrides files = .ok file ↔ InUse overrides files file := by
  unfold configFile?
  constructor
  · intro accepted
    cases config : overrides.config with
    | some path =>
        rw [config] at accepted
        dsimp only at accepted
        split at accepted
        next present =>
          cases accepted
          exact .named config present
        next => cases accepted
    | none =>
        rw [config] at accepted
        cases accepted
        cases present : (files defaultFile).exists? with
        | true => exact .found config present
        | false => exact .nothing config present
  · intro inUse
    cases inUse with
    | named config present => simp [config, present]
    | found config present => simp [config, present]
    | nothing config absent => simp [config, absent]

theorem readDocument_ok_iff {path : String} {document : Document} :
    readDocument files path = .ok document ↔ Contains files (some path) document := by
  unfold readDocument
  constructor
  · intro accepted
    obtain ⟨content, read, parsed⟩ := ok_of_bind accepted
    cases entry : files path with
    | text found =>
        rw [entry] at read
        cases read
        cases parse : Document.parse content with
        | error error =>
            rw [parse] at parsed
            cases parsed
        | ok found =>
            rw [parse] at parsed
            cases parsed
            exact .text entry parse
    | _ =>
        rw [entry] at read
        cases read
  · intro contained
    cases contained with
    | text entry parse => simp [entry, parse, FileEntry.read, Except.mapError, bind, Except.bind]

theorem document_ok_iff {document : Document} :
    Settings.document overrides files = .ok document ↔
      ∃ file, InUse overrides files file ∧ Contains files file document := by
  unfold Settings.document
  constructor
  · intro accepted
    obtain ⟨file, chosen, read⟩ := ok_of_bind accepted
    refine ⟨file, configFile?_ok_iff.mp chosen, ?_⟩
    cases file with
    | some path => exact readDocument_ok_iff.mp read
    | none =>
        cases read
        exact .nothing
  · rintro ⟨file, inUse, contained⟩
    rw [configFile?_ok_iff.mpr inUse]
    cases file with
    | some path => exact readDocument_ok_iff.mpr contained
    | none =>
        cases contained
        rfl

/-! ## The layers -/

/-- The setting comes from the first layer that has it: the command line, the configuration file, or the default. -/
inductive FromFirst {α : Type} (override file : Option α) (default : α) : α → Prop where
  | override {value : α} : override = some value → FromFirst override file default value
  | file {value : α} : override = none → file = some value → FromFirst override file default value
  | default : override = none → file = none → FromFirst override file default default

theorem fromFirst_iff {α : Type} {override file : Option α} {default value : α} :
    FromFirst override file default value ↔ value = (override <|> file).getD default := by
  constructor
  · intro first
    cases first with
    | override given => simp [given]
    | file absent given => simp [absent, given]
    | default absent none => simp [absent, none]
  · intro same
    cases override with
    | some given => exact .override (congrArg some same).symm
    | none =>
        cases file with
        | some given => exact .file rfl (congrArg some same).symm
        | none => exact same ▸ .default rfl rfl

/-- Each setting is taken for itself. -/
structure Layered (overrides : Overrides) (document : Document) (settings : Settings) : Prop where
  maxDepth : FromFirst overrides.maxDepth (document.limit? .maxDepth) 100 settings.limits.maxDepth
  maxInputBytes : FromFirst overrides.maxInputBytes (document.limit? .maxInputBytes) 65536 settings.limits.maxInputBytes
  maxOrderings : FromFirst overrides.maxOrderings (document.limit? .maxOrderings) 50 settings.limits.maxOrderings
  backend : FromFirst overrides.backend document.backend .postgres settings.backend

theorem layered_iff {document : Document} {settings : Settings} :
    Layered overrides document settings ↔ settings = layer overrides document := by
  have file : ∀ name, (document.limits.getD {}).get name = document.limit? name := by
    intro name
    unfold Document.limit?
    cases document.limits with
    | none => cases name <;> rfl
    | some limits => rfl
  have parts : layer overrides document =
      ⟨⟨(overrides.maxDepth <|> document.limit? .maxDepth).getD 100,
          (overrides.maxInputBytes <|> document.limit? .maxInputBytes).getD 65536,
          (overrides.maxOrderings <|> document.limit? .maxOrderings).getD 50⟩,
        (overrides.backend <|> document.backend).getD .postgres⟩ := by
    rw [← file .maxDepth, ← file .maxInputBytes, ← file .maxOrderings]
    rfl
  obtain ⟨⟨maxDepth, maxInputBytes, maxOrderings⟩, backend⟩ := settings
  rw [parts, Settings.mk.injEq, Limits.mk.injEq]
  constructor
  · rintro ⟨depth, inputBytes, orderings, chosen⟩
    exact ⟨⟨fromFirst_iff.mp depth, fromFirst_iff.mp inputBytes, fromFirst_iff.mp orderings⟩, fromFirst_iff.mp chosen⟩
  · rintro ⟨⟨depth, inputBytes, orderings⟩, chosen⟩
    exact ⟨fromFirst_iff.mpr depth, fromFirst_iff.mpr inputBytes, fromFirst_iff.mpr orderings, fromFirst_iff.mpr chosen⟩

/-! ## What is refused -/

structure Valid (settings : Settings) : Prop where
  depth : 1 ≤ settings.limits.maxDepth ∧ settings.limits.maxDepth ≤ 127
  inputBytes : 0 < settings.limits.maxInputBytes
  orderings : 0 < settings.limits.maxOrderings

theorem validate_ok_iff {settings result : Settings} :
    settings.validate = .ok result ↔ Valid settings ∧ settings = result := by
  unfold validate Limits.greatestDepth
  constructor
  · intro accepted
    split at accepted
    next => cases accepted
    next depth =>
      split at accepted
      next => cases accepted
      next inputBytes =>
        split at accepted
        next => cases accepted
        next orderings =>
          cases accepted
          exact ⟨⟨by omega, by omega, by omega⟩, rfl⟩
  · rintro ⟨⟨depth, inputBytes, orderings⟩, rfl⟩
    rw [if_neg (by omega), if_neg (by omega), if_neg (by omega)]

theorem Valid.depthLimit {settings : Settings} (valid : Valid settings) :
    settings.limits.depthLimit = settings.limits.maxDepth :=
  Nat.min_eq_left valid.depth.2

/-! ## Loading -/

theorem load_ok_iff {settings : Settings} :
    load overrides files = .ok settings ↔
      ∃ file document, InUse overrides files file ∧ Contains files file document ∧
        Layered overrides document settings ∧ Valid settings := by
  constructor
  · intro loaded
    obtain ⟨document, read, accepted⟩ := ok_of_bind loaded
    obtain ⟨file, inUse, contained⟩ := document_ok_iff.mp read
    obtain ⟨valid, same⟩ := validate_ok_iff.mp accepted
    exact ⟨file, document, inUse, contained, layered_iff.mpr same.symm, same ▸ valid⟩
  · rintro ⟨file, document, inUse, contained, layered, valid⟩
    obtain rfl := layered_iff.mp layered
    rw [load, document_ok_iff.mpr ⟨file, inUse, contained⟩]
    exact validate_ok_iff.mpr ⟨valid, rfl⟩

theorem load_missing {path : String} (named : overrides.config = some path)
    (missing : (files path).exists? = false) : load overrides files = .error (.noConfigFile path) := by
  simp [load, Settings.document, configFile?, named, missing, bind, Except.bind]

/-- The only file that is looked at. -/
def lookedAt (overrides : Overrides) : String :=
  overrides.config.getD defaultFile

theorem document_congr {other : Files} (same : other (lookedAt overrides) = files (lookedAt overrides)) :
    Settings.document overrides other = Settings.document overrides files := by
  unfold lookedAt at same
  unfold Settings.document configFile?
  cases config : overrides.config with
  | some path =>
      simp only [config, Option.getD_some] at same
      simp only [same]
      split
      next => simp [readDocument, same, bind, Except.bind]
      next => rfl
  | none =>
      simp only [config, Option.getD_none] at same
      simp only [same]
      split
      next => simp [readDocument, same, bind, Except.bind]
      next => rfl

/-- Settings are loaded from the one configuration file in use, layer by layer, if what results is valid. A named file
that is missing is a failure, and no other file is looked at. The file counts for the entries that are written in it. -/
theorem load_exact (overrides : Overrides) (files : Files) :
    (∀ settings, load overrides files = .ok settings ↔
      ∃ file document, InUse overrides files file ∧ Contains files file document ∧
        Layered overrides document settings ∧ Valid settings) ∧
    (∀ path, overrides.config = some path → (files path).exists? = false →
      load overrides files = .error (.noConfigFile path)) ∧
    (∀ other : Files, other (lookedAt overrides) = files (lookedAt overrides) →
      load overrides other = load overrides files) ∧
    (∀ (entries : Entries) (text : String), Json.SpelledAs entries.tree text.toList →
      ∃ document, Document.parse text = .ok document ∧
        (∀ name limit, document.limit? name = some limit ↔ entries.Limits name limit) ∧
        ∀ backend, document.backend = some backend ↔ .backend (some backend) ∈ entries.list) ∧
    (∀ settings, load overrides files = .ok settings →
      settings.limits.depthLimit = settings.limits.maxDepth) := by
  refine ⟨fun _ => load_ok_iff, fun _ => load_missing, ?_, fun _ _ => Document.parse_spelled, ?_⟩
  · intro other same
    rw [load, document_congr same]
    rfl
  · intro settings loaded
    obtain ⟨_, _, _, _, _, valid⟩ := load_ok_iff.mp loaded
    exact valid.depthLimit

/-- A depth out of range in the file does not matter if the command line has another one. -/
example :
    let files : Files := fun path =>
      if path = "a.json" then
        .text "\x7b\"limits\": \x7b\"max_depth\": 500, \"max_orderings\": null\x7d, \"backend\": \"sqlite\"\x7d"
      else .text "?"
    load { config := some "a.json", maxDepth := some 30 } files = .ok ⟨⟨30, 65536, 50⟩, .sqlite⟩ ∧
      load { config := some "a.json" } files = .error (.depthOutOfRange 500) := by
  decide +kernel

end FilterSql.Settings
