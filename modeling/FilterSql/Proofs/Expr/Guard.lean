import FilterSql.Proofs.Expr.Sources
import FilterSql.Proofs.Json.Limit

/-!
# The scan is there before the limit of the reader

The reader of JSON texts refuses to open a bracket where too many are open already. A text that the scan lets pass never
gets it there, be it well-formed or not: up to the first fault the scan has as many brackets open as the reader, and
behind that the reader does not look.
-/

set_option autoImplicit false

namespace FilterSql.Expr

open Json
open Schema (RecordType)

/-- The reader is not stopped by its own limit on a text that the scan gets over with `opened` brackets open. -/
def Guarded {α : Type} (limit opened : Nat) (read : Reader α) : Prop :=
  ∀ text, scan limit .outside opened text = true → NoLimitFault (read text)

/-- The scan gets over all that the reader reads. -/
def Followed (read : Reader Tree) : Prop :=
  ∀ text tree rest, read text = .ok (tree, rest) → Weighs text tree.nesting rest

variable {limit opened : Nat}

theorem scan_of_weighs {text rest : List Char} {nesting : Nat} (within : opened ≤ limit)
    (weighs : Weighs text nesting rest) (scanned : scan limit .outside opened text = true) :
    scan limit .outside opened rest = true :=
  ((weighs limit opened within).mp scanned).2

theorem scan_of_reaches {text rest : List Char} {mode : ScanMode} (reaches : Reaches text mode rest)
    (scanned : scan limit .outside opened text = true) : scan limit mode opened rest = true := by
  rw [← reaches limit opened]
  exact scanned

theorem readItems_guarded {item : Reader Tree} (within : opened ≤ limit) (guarded : Guarded limit opened item)
    (followed : Followed item) (fuel : Nat) (first : Bool) : Guarded limit opened (readItems item fuel first) := by
  induction fuel generalizing first with
  | zero => exact fun _ _ => noLimitFault_error (by nofun)
  | succ fuel ih =>
      intro text scanned
      unfold readItems
      refine (nextItem_noLimitFault first text).bind fun next found => ?_
      obtain ⟨found?, behind⟩ := next
      have reached := scan_of_reaches (nextItem_reaches (reaches_start text) found).1 scanned
      cases found? with
      | false => exact noLimitFault_ok _
      | true =>
          refine (guarded behind reached).bind fun read itemRead => ?_
          exact (ih false _ (scan_of_weighs within (followed _ _ _ itemRead) reached)).bind fun _ _ => noLimitFault_ok _

theorem readMembers_guarded {tree : Reader Tree} (within : opened ≤ limit) (guarded : Guarded limit opened tree)
    (followed : Followed tree) (fuel : Nat) (first : Bool) (collected : List (String × Tree)) :
    Guarded limit opened (readMembers (Tree.readMember tree) fuel first collected) := by
  induction fuel generalizing first collected with
  | zero => exact fun _ _ => noLimitFault_error (by nofun)
  | succ fuel ih =>
      intro text scanned
      unfold readMembers
      refine (nextMember_noLimitFault first text).bind fun next found => ?_
      obtain ⟨found?, behind⟩ := next
      have reached := nextMember_reaches (reaches_start text) found
      cases found? with
      | false => exact noLimitFault_ok _
      | true =>
          refine (readString_noLimitFault behind).bind fun key keyRead => ?_
          have keyReached := scan_of_reaches (readString_reaches reached _ _ keyRead) scanned
          have member : NoLimitFault (Tree.readMember tree collected key.1 key.2) := by
            refine (readColon_noLimitFault key.2).bind fun after colon => ?_
            have valueReached := scan_of_reaches (readColon_reaches (reaches_start key.2) colon) keyReached
            exact (guarded after valueReached).bind fun _ _ => noLimitFault_ok _
          refine member.bind fun grown memberRead => ?_
          obtain ⟨value, _, weighs⟩ := readMember_weighs followed memberRead
          exact ih false grown.1 grown.2 (scan_of_weighs within weighs keyReached)

theorem scan_opening {c : Char} {rest : List Char} (opening : c = '[' ∨ c = '\x7b')
    (scanned : scan limit .outside opened (c :: rest) = true) :
    opened < limit ∧ scan limit .outside (opened + 1) rest = true := by
  rcases opening with rfl | rfl <;> simpa [scan] using scanned

/-- The reader may open as many brackets as it has left, and the scan no more than that. -/
theorem reader_guarded {limit : Nat} (depth opened : Nat) (room : limit ≤ opened + depth) :
    Guarded limit opened (Tree.reader depth) := by
  -- By recursion on the depth. Behind a bracket the scan has one more open, and the reader one less left.
  intro text scanned
  have reached := scan_of_reaches (reaches_start text).skipBlank scanned
  unfold Tree.reader
  split
  next => exact noLimitFault_error (by nofun)
  next c rest shape =>
    rw [shape] at reached
    split
    next list =>
      obtain ⟨below, inside⟩ := scan_opening (.inl list) reached
      cases depth with
      | zero => omega
      | succ inner =>
          have items :=
            readItems_guarded below (reader_guarded inner (opened + 1) (by omega)) (fun _ _ _ => reader_weighs)
              (rest.length + 1) true rest inside
          exact items.bind fun _ _ => noLimitFault_ok _
    next =>
      split
      next object =>
        obtain ⟨below, inside⟩ := scan_opening (.inr object) reached
        cases depth with
        | zero => omega
        | succ inner =>
            have members :=
              readMembers_guarded below (reader_guarded inner (opened + 1) (by omega)) (fun _ _ _ => reader_weighs)
                (rest.length + 1) true [] rest inside
            exact members.bind fun _ _ => noLimitFault_ok _
      next => exact (readScalar_noLimitFault c rest).bind fun _ _ => noLimitFault_ok _

theorem readAll_ne_nestingLimit {α : Type} {read : Reader α} {text : String} (noFault : NoLimitFault (read text.toList))
    (position : Position) : readAll read text ≠ .error ⟨.nestingLimit, position⟩ := by
  intro failed
  unfold readAll at failed
  cases begun : read text.toList with
  | error fault =>
      rw [begun] at failed
      have located : fault.locate text.toList = ⟨.nestingLimit, position⟩ := Except.error.inj failed
      exact noFault fault begun (congrArg ParseError.reason located)
  | ok outcome =>
      obtain ⟨value, rest⟩ := outcome
      rw [begun] at failed
      simp only [bind, Except.bind] at failed
      cases behind : skipBlank rest with
      | nil =>
          rw [behind] at failed
          cases failed
      | cons c rest =>
          rw [behind] at failed
          cases failed

theorem checkNesting_ok_iff {text : String} {limit : Nat} :
    checkNesting text limit = .ok () ↔ scan limit .outside 0 text.toList = true := by
  unfold checkNesting
  split <;> simp [*]

theorem parse_ne_nestingLimit {text : String} {limits : Limits} (checked : checkNesting text limits.depthLimit = .ok ())
    (position : Position) : Json.parse text ≠ .error ⟨.nestingLimit, position⟩ := by
  have within : limits.depthLimit ≤ 0 + maxNesting := by
    rw [Nat.zero_add]
    exact Nat.min_le_right _ _
  have noFault :=
    readAll_ne_nestingLimit (reader_guarded maxNesting 0 within _ (checkNesting_ok_iff.mp checked)) position
  intro failed
  rw [Json.parse_eq] at failed
  cases read : Tree.parse text with
  | ok tree => simp [read, Except.map] at failed
  | error error =>
      obtain rfl : error = ⟨.nestingLimit, position⟩ := by simpa [read, Except.map] using failed
      exact noFault read

-- The greatest depth limit is the last one that the scan can keep: with one bracket more the reader gives up.
example : Json.parse (String.ofList (List.replicate 128 '[')) = .error ⟨.nestingLimit, ⟨1, 128⟩⟩ := by
  decide +kernel

/-! ## Expressions -/

variable {ρ : Type} [RecordType ρ]

/-- The rejection says that the reader has given up for the nesting of the text. -/
def StoppedByReader (error : CompileError) : Prop :=
  ∃ position, error = .notJson ⟨.nestingLimit, position⟩

theorem skeleton_not_stoppedByReader {schema : Option ρ} {limit : Nat} {node : Json} {error : CompileError}
    (rejected : skeleton schema limit 0 node = .error error) : ¬ StoppedByReader error := by
  obtain ⟨part, _, fault⟩ := exists_fault_of_rejected rejected
  rintro ⟨position, rfl⟩
  cases faulty_of_fault fault with
  | path unresolved => cases unresolved

omit [RecordType ρ] in
theorem read_visible {expr : Expr ρ} {text : String} (small : text.utf8ByteSize ≤ expr.limits.maxInputBytes)
    (visible : Text.allBlank text = false) :
    Expr.read (expr.withText text).source (expr.withText text).isBoolean (expr.withText text).limits = (do
      checkNesting text expr.limits.depthLimit
      let value ← (Json.parse text).mapError .notJson
      .ok (some value)) := by
  have fits : ¬ expr.limits.maxInputBytes < text.utf8ByteSize := Nat.not_lt.mpr small
  unfold Expr.read read.readText withText
  simp only [fits, visible, Bool.false_eq_true, if_false]

theorem not_stoppedByReader {expr : Expr ρ} {text : String} (small : text.utf8ByteSize ≤ expr.limits.maxInputBytes)
    (visible : Text.allBlank text = false) (checked : checkNesting text expr.limits.depthLimit = .ok ())
    {error : CompileError} (rejected : (expr.withText text).fragment = .error error) : ¬ StoppedByReader error := by
  have taken := read_visible small visible
  rw [checked] at taken
  cases parsed : Json.parse text with
  | error reason =>
      rw [parsed] at taken
      rw [fragment_of_read_error taken] at rejected
      cases rejected
      rintro ⟨position, same⟩
      obtain rfl := CompileError.notJson.inj same
      exact parse_ne_nestingLimit checked position parsed
  | ok value =>
      rw [parsed] at taken
      rw [fragment_of_read taken] at rejected
      cases found : skeleton (expr.withText text).schema (expr.withText text).limits.depthLimit 0 value with
      | ok accepted =>
          rw [found] at rejected
          cases rejected
      | error reason =>
          rw [found] at rejected
          cases rejected
          exact skeleton_not_stoppedByReader found

/-- On a text that the scan lets pass, the reader never comes to its limit. An expression is rejected for the nesting of
its text by the scan, or not at all. -/
theorem compile_guarded (expr : Expr ρ) (text : String) :
    (checkNesting text expr.limits.depthLimit = .ok () →
      ∀ position, Json.parse text ≠ .error ⟨.nestingLimit, position⟩) ∧
    (text.utf8ByteSize ≤ expr.limits.maxInputBytes → Text.allBlank text = false →
      (checkNesting text expr.limits.depthLimit = .error (.tooDeep expr.limits.depthLimit) ∧
        ∀ backend, (expr.withText text).compile backend = .error (.tooDeep expr.limits.depthLimit)) ∨
      (checkNesting text expr.limits.depthLimit = .ok () ∧
        ∀ backend error, (expr.withText text).compile backend = .error error → ¬ StoppedByReader error)) := by
  refine ⟨fun checked => parse_ne_nestingLimit checked, fun small visible => ?_⟩
  by_cases scanned : scan expr.limits.depthLimit .outside 0 text.toList = true
  · right
    have checked := checkNesting_ok_iff.mpr scanned
    refine ⟨checked, fun backend error rejected => ?_⟩
    exact not_stoppedByReader small visible checked (compile_error_iff.mp rejected)
  · left
    have checked : checkNesting text expr.limits.depthLimit = .error (.tooDeep expr.limits.depthLimit) := by
      unfold checkNesting
      exact if_neg scanned
    have taken := read_visible small visible
    rw [checked] at taken
    exact ⟨checked, fun backend => compile_error_iff.mpr (fragment_of_read_error taken)⟩

/-- An expression that the configured limit leaves to the limit of the reader. -/
def deepest : Expr Schema where
  limits := { maxDepth := 500 }

/-- The reader gets to the wrong bracket behind the string. Where it does not get, some are closed too often. -/
def brackets : String := "[[[1, \"[[\\\"[\"\x7d, ]]]]] \x7b[["

theorem compile_guarded_brackets :
    checkNesting brackets deepest.limits.depthLimit = .ok () ∧
      (∀ position, Json.parse brackets ≠ .error ⟨.nestingLimit, position⟩) ∧
      ∀ backend error, (deepest.withText brackets).compile backend = .error error → ¬ StoppedByReader error := by
  have checked : checkNesting brackets deepest.limits.depthLimit = .ok () := by decide +kernel
  obtain ⟨read, compiled⟩ := compile_guarded deepest brackets
  refine ⟨checked, read checked, ?_⟩
  rcases compiled (by decide +kernel) (by decide +kernel) with ⟨rejected, _⟩ | ⟨_, accepted⟩
  · rw [checked] at rejected
    cases rejected
  · exact accepted

end FilterSql.Expr
