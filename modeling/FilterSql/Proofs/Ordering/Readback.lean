import FilterSql.Ordering
import FilterSql.Proofs.Sql.FieldPath
import FilterSql.Schema.Loaded

/-!
# Reading orderings back

The text of orderings tells their columns and directions. A reader that looks for double quotes alone recovers them: as
no name has one in it, nothing in a name is taken for what stands around names.
-/

set_option autoImplicit false

namespace FilterSql

open Sql (FieldPath)

/-! ## Splitting at double quotes -/

theorem splitOn_append_of_not_mem {front : List Char} (plain : '"' ∉ front) (back : List Char) :
    (front ++ back).splitOn '"' = (back.splitOn '"').modifyHead (front ++ ·) := by
  induction front with
  | nil => exact (congrFun List.modifyHead_id _).symm
  | cons c front ih =>
      have other : (c == '"') = false := beq_false_of_ne (List.ne_of_not_mem_cons plain).symm
      rw [List.cons_append, List.splitOn_cons_eq_if_modifyHead, other, ih (List.not_mem_of_not_mem_cons plain)]
      cases back.splitOn '"' <;> rfl

theorem splitOn_quote (back : List Char) : ('"' :: back).splitOn '"' = [] :: back.splitOn '"' :=
  List.splitOn_cons_eq_if_modifyHead '"' back

theorem splitOn_quoted {front : List Char} (plain : '"' ∉ front) {name : String} (identifier : '"' ∉ name.toList)
    (back : List Char) :
    (front ++ ((FieldPath.quoted name).toList ++ back)).splitOn '"' = front :: name.toList :: back.splitOn '"' := by
  have shape : (FieldPath.quoted name).toList ++ back = '"' :: (name.toList ++ '"' :: back) := by
    simp [FieldPath.quoted]
  rw [shape, splitOn_append_of_not_mem plain, splitOn_quote, splitOn_append_of_not_mem identifier, splitOn_quote]
  simp

/-! ## The reader -/

namespace Orders

def extend (name : String) : List (List String × Bool) → List (List String × Bool)
  | [] => []
  | (names, descending) :: others => (name :: names, descending) :: others

/-- Reads what double quotes set apart: a name, what stands behind it, and so on. A path ends where a blank follows,
with the direction after it. -/
def readNames : List (List Char) → List (List String × Bool)
  | name :: behind :: rest =>
    if behind.head? = some ' ' then ([String.ofList name], behind[1]? == some 'd') :: readNames rest
    else extend (String.ofList name) (readNames rest)
  | _ => []

def readFrom (text : List Char) : List (List String × Bool) :=
  readNames (text.splitOn '"').tail

def recover (text : String) : List (List String × Bool) :=
  readFrom text.toList

/-! ## Reading what was written -/

@[simp] theorem readFrom_nil : readFrom [] = [] := rfl

theorem readFrom_append {front : List Char} (plain : '"' ∉ front) (back : List Char) :
    readFrom (front ++ back) = readFrom back := by
  unfold readFrom
  rw [splitOn_append_of_not_mem plain, List.tail_modifyHead]

theorem readFrom_quoted {front : List Char} (plain : '"' ∉ front) {name : String} (identifier : '"' ∉ name.toList)
    (back : List Char) :
    readFrom (front ++ ((FieldPath.quoted name).toList ++ back)) = readNames (name.toList :: back.splitOn '"') := by
  unfold readFrom
  rw [splitOn_quoted plain identifier, List.tail_cons]

def ending (descending : Bool) : List Char :=
  ' ' :: if descending then "desc".toList else "asc".toList

theorem readNames_ending (name : String) (descending : Bool) (back : List Char) :
    readNames (name.toList :: (ending descending ++ back).splitOn '"') = ([name], descending) :: readFrom back := by
  have plain : '"' ∉ ending descending := by cases descending <;> decide
  obtain ⟨first, others, split⟩ := List.exists_cons_of_ne_nil (List.splitOn_ne_nil '"' back)
  rw [splitOn_append_of_not_mem plain, readFrom, split]
  cases descending <;> simp [readNames, ending]

theorem readNames_extend (name : String) {between : List Char} (plain : '"' ∉ between)
    (joined : between.head? ≠ some ' ') {next : String} (identifier : '"' ∉ next.toList) (back : List Char) :
    readNames (name.toList :: (between ++ ((FieldPath.quoted next).toList ++ back)).splitOn '"') =
      extend name (readNames (next.toList :: back.splitOn '"')) := by
  rw [splitOn_quoted plain identifier]
  simp [readNames, joined]

theorem readNames_points (first : String) {names : List String} (identifiers : ∀ name ∈ names, '"' ∉ name.toList)
    (descending : Bool) (back : List Char) :
    readNames (first.toList ::
        ((names.flatMap fun name => '.' :: (FieldPath.quoted name).toList) ++
          (ending descending ++ back)).splitOn '"') =
      (first :: names, descending) :: readFrom back := by
  -- The first name is read before it shows whether others follow it, so it is another one each time.
  induction names generalizing first with
  | nil => exact readNames_ending first descending back
  | cons second names ih =>
      obtain ⟨identifier, others⟩ := List.forall_mem_cons.mp identifiers
      have point : '"' ∉ ['.'] ∧ ['.'].head? ≠ some ' ' := by decide
      rw [List.flatMap_cons, List.append_assoc]
      exact (readNames_extend first point.1 point.2 identifier _).trans (congrArg (extend first) (ih second others))

theorem readFrom_path (path : FieldPath) (descending : Bool) (back : List Char) :
    readFrom (path.text.toList ++ (ending descending ++ back)) = (path.segments, descending) :: readFrom back := by
  have plain : ∀ name ∈ path.segments, '"' ∉ name.toList := fun _ => FieldPath.quote_not_mem
  unfold FieldPath.text
  match shape : path.segments with
  | [] => exact absurd shape path.nonempty
  | [only] =>
      rw [shape] at plain
      rw [FieldPath.textOf]
      exact (readFrom_quoted List.not_mem_nil (plain only (by simp)) _).trans (readNames_ending only descending back)
  | first :: second :: rest =>
      rw [shape] at plain
      obtain ⟨firstPlain, secondPlain, others⟩ := by simpa using plain
      have chars : (FieldPath.textOf (first :: second :: rest)).toList ++ (ending descending ++ back) =
          ['('] ++ ((FieldPath.quoted first).toList ++ ([')', '.'] ++ ((FieldPath.quoted second).toList ++
            ((rest.flatMap fun name => '.' :: (FieldPath.quoted name).toList) ++ (ending descending ++ back))))) := by
        simp [FieldPath.textOf, List.flatMap_map]
      rw [chars, readFrom_quoted (by decide) firstPlain, readNames_extend first (by decide) (by decide) secondPlain,
        readNames_points second others, extend]

theorem readFrom_order (order : Order) (back : List Char) :
    readFrom (order.text.toList ++ back) = (order.path.segments, order.descending) :: readFrom back := by
  have chars : order.text.toList ++ back = order.path.text.toList ++ (ending order.descending ++ back) := by
    cases direction : order.descending <;> simp [Order.text, ending, direction]
  rw [chars, readFrom_path]

theorem readFrom_items (items : List Order) :
    readFrom (", ".intercalate (items.map Order.text)).toList =
      items.map fun order => (order.path.segments, order.descending) := by
  induction items with
  | nil => rfl
  | cons order rest ih =>
      cases rest with
      | nil => simpa using readFrom_order order []
      | cons second rest =>
          have comma : '"' ∉ ", ".toList := by decide
          rw [List.map_cons, List.map_cons, String.intercalate_cons_cons, ← List.map_cons, String.toList_append,
            String.toList_append, List.append_assoc, readFrom_order, readFrom_append comma, ih]
          rfl

theorem recover_text {ρ : Type} (orders : Orders ρ) :
    recover orders.text = orders.items.map fun order => (order.path.segments, order.descending) := by
  unfold text recover
  split
  next none => simp [none]
  next =>
      have opening : '"' ∉ "order by ".toList := by decide
      rw [String.toList_append, readFrom_append opening, readFrom_items]

theorem text_eq_empty_iff {ρ : Type} (orders : Orders ρ) : orders.text = "" ↔ orders.items = [] := by
  unfold text
  split
  next none => simp [none]
  next some => simpa using some

end Orders

theorem Order.eq_of_segments {order other : Order}
    (same : (order.path.segments, order.descending) = (other.path.segments, other.descending)) : order = other := by
  obtain ⟨segments, descending⟩ := Prod.mk.inj same
  cases order
  cases other
  exact congr (congrArg Order.mk (FieldPath.eq_of_segments segments)) descending

theorem Sql.FieldPath.text_injective {path other : FieldPath} (same : path.text = other.text) : path = other := by
  have left := Orders.readFrom_path path false []
  have right := Orders.readFrom_path other false []
  rw [same, right] at left
  exact FieldPath.eq_of_segments (Prod.mk.inj (List.cons.inj left).1).1.symm

namespace Orders

/-- One reader recovers columns and directions from the text of any orderings, so that different orderings, and
different paths, have different texts. -/
theorem text_reversible (ρ σ : Type) :
    (∀ orders : Orders ρ,
      recover orders.text = orders.items.map fun order => (order.path.segments, order.descending)) ∧
    (∀ (orders : Orders ρ) (others : Orders σ), orders.text = others.text → orders.items = others.items) ∧
    (∀ path other : FieldPath, path.text = other.text → path = other) ∧
    ∀ orders : Orders ρ, orders.text = "" ↔ orders.items = [] := by
  refine ⟨recover_text, fun orders others same => ?_, fun _ _ => FieldPath.text_injective, text_eq_empty_iff⟩
  have read : orders.items.map (fun order => (order.path.segments, order.descending)) =
      others.items.map fun order => (order.path.segments, order.descending) := by
    rw [← recover_text, same, recover_text]
  exact (List.map_inj_right fun _ _ => Order.eq_of_segments).mp read

/-- A path whose names look like the text of orderings. -/
def lookalike : FieldPath :=
  ⟨["x asc, (y", "order by z).w"], by decide, by decide +kernel⟩

theorem text_reversible_lookalike :
    (ofItems [⟨lookalike, true⟩] : Orders Schema).text = "order by (\"x asc, (y\").\"order by z).w\" desc" ∧
      ∀ others : Orders Schema, others.text = "order by (\"x asc, (y\").\"order by z).w\" desc" →
        others.items = [⟨lookalike, true⟩] := by
  have written : (ofItems [⟨lookalike, true⟩] : Orders Schema).text =
      "order by (\"x asc, (y\").\"order by z).w\" desc" := by decide +kernel
  exact ⟨written, fun others same => (text_reversible Schema Schema).2.1 others _ (same.trans written.symm)⟩

end Orders

end FilterSql
