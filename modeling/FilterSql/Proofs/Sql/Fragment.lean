import FilterSql.Proofs.Sql.Spacing

/-!
# Fragments

A fragment is the sequence of literals and arguments that a successful writing adds to a page. What a fragment adds to
a builder depends on it only through its backend and the ordinal it has reached; a page between the two does not show.
-/

set_option autoImplicit false

namespace FilterSql.Sql

/-- A part of a statement: text as it stands, or a value to be bound. -/
inductive Piece where
  | literal (text : String)
  | argument (value : Value)

/-- A part of a statement that is the same for every backend and in every place. -/
abbrev Fragment := List Piece

namespace Fragment

def arguments : Fragment → List Value
  | [] => []
  | .literal _ :: rest => arguments rest
  | .argument value :: rest => value :: arguments rest

/-- The text of a fragment behind `bound` arguments. -/
def text (backend : Backend) (bound : Nat) : Fragment → String
  | [] => ""
  | .literal fragment :: rest => join fragment (text backend bound rest)
  | .argument _ :: rest => join (backend.placeholder (bound + 1)) (text backend (bound + 1) rest)

@[simp] theorem arguments_append (first second : Fragment) :
    arguments (first ++ second) = arguments first ++ arguments second := by
  induction first with
  | nil => rfl
  | cons piece rest ih =>
      cases piece with
      | literal fragment => exact ih
      | argument value => exact congrArg (value :: ·) ih

theorem text_append (backend : Backend) (bound : Nat) (first second : Fragment) :
    text backend bound (first ++ second) =
      join (text backend bound first) (text backend (bound + (arguments first).length) second) := by
  induction first generalizing bound with
  | nil => simp [text, arguments]
  | cons piece rest ih =>
      cases piece with
      | literal fragment => simp only [List.cons_append, text, arguments, ih, join_assoc]
      | argument value =>
          have shifted : bound + 1 + (arguments rest).length = bound + (value :: arguments rest).length := by
            simp only [List.length_cons]; omega
          simp only [List.cons_append, text, arguments, ih, join_assoc, shifted]

end Fragment

namespace Page

variable {π : Type} [Page π]

def appendPiece (page : π) : Piece → π
  | .literal fragment => appendLiteral page fragment
  | .argument value => appendArgument page value

def appendFragment (page : π) (fragment : Fragment) : π :=
  fragment.foldl appendPiece page

@[simp] theorem appendFragment_nil (page : π) : appendFragment page [] = page := rfl

theorem appendFragment_append (page : π) (first second : Fragment) :
    appendFragment page (first ++ second) = appendFragment (appendFragment page first) second :=
  List.foldl_append

end Page

/-- A fragment that is written apart and taken over is a fragment written at once. -/
class LawfulPage (π : Type) [Page π] : Prop where
  takeOver_scratch : ∀ (page : π) (fragment : Fragment),
    Page.takeOver page (Page.appendFragment (Page.scratch page) fragment) = Page.appendFragment page fragment

namespace Builder

theorem appendFragment_eq (builder : Builder) (fragment : Fragment) :
    Page.appendFragment builder fragment =
      { builder with
        text := join builder.text (fragment.text builder.backend builder.lastOrdinal)
        arguments := builder.arguments ++ fragment.arguments.toArray } := by
  induction fragment generalizing builder with
  | nil => simp [Fragment.text, Fragment.arguments]
  | cons piece rest ih =>
      refine (ih (Page.appendPiece builder piece)).trans ?_
      cases piece with
      | literal fragment =>
          simp [Page.appendPiece, Page.appendLiteral, appendLiteral, lastOrdinal, Fragment.text, Fragment.arguments,
            join_assoc]
      | argument value =>
          simp [Page.appendPiece, Page.appendArgument, appendArgument, lastOrdinal, Fragment.text, Fragment.arguments,
            join_assoc, Nat.add_assoc]

instance : LawfulPage Builder where
  takeOver_scratch builder fragment := by
    rw [appendFragment_eq, appendFragment_eq]
    simp [Page.takeOver, Page.scratch, takeOver, scratch, lastOrdinal]

end Builder

end FilterSql.Sql
