import Dialogue.Store.Row

/-! # Queries

Which rows of a collection are wanted, in what order, and which page of them. Values are ordered
null and absent first; numbers by size, texts by their characters, anything else by its JSON text.
Rows that come out equal keep their order. -/

namespace Dialogue

/-- Which rows are wanted. -/
structure Query where
  /-- The columns that must have a value. -/
  filters : List (String × Json)
  /-- The columns to order by, the first one first; `true` for descending. -/
  order : List (String × Bool)
  limit : Nat
  offset : Nat

/-- One page of rows. -/
structure Page (α : Type) where
  /-- The number of rows on all pages. -/
  count : Nat
  /-- The number of this page, from one on. -/
  number : Nat
  pages : Nat
  size : Nat
  rows : List α

namespace Query

/-- The number of rows of a page unless it is said. -/
def defaultLimit : Nat := 100

/-- All rows, in their order. -/
def all : Query := ⟨[], [], defaultLimit, 0⟩

/-- The query with pages of so many rows; a page has one row at least. -/
def withLimit (q : Query) (n : Nat) : Query := { q with limit := max n 1 }

/-- The value is null or absent. -/
def isMissing : Option Json → Bool
  | none | some .null => true
  | _ => false

/-- The order of two numbers; one that is none comes out equal to all. -/
def compareFloats (x y : Float) : Ordering :=
  if x < y then .lt else if y < x then .gt else .eq

/-- The order of two columns. -/
def compareColumns (a b : Option Json) : Ordering :=
  match isMissing a, isMissing b with
  | true, true => .eq
  | true, false => .lt
  | false, true => .gt
  | false, false =>
    let a := a.getD .null
    let b := b.getD .null
    match a.toFloat?, b.toFloat?, a.str?, b.str? with
    | some x, some y, _, _ => compareFloats x y
    | _, _, some s, some t => compare s t
    | _, _, _, _ => compare a.text b.text

/-- The order of two rows by their columns. -/
def compareRows (order : List (String × Bool)) (a b : Fields) : Ordering :=
  match order with
  | [] => .eq
  | (name, descending) :: rest =>
    let o := compareColumns (a.get? name) (b.get? name)
    (if descending then o.swap else o).then (compareRows rest a b)

/-- The row passes the filters. -/
def keeps (filters : List (String × Json)) (columns : Fields) : Bool :=
  filters.all fun f => f.2.isSame (columns.get? f.1)

section
variable {α : Type} [Row α]

/-- All rows that are wanted, in order. -/
def select (q : Query) (rows : List α) : List α :=
  (rows.filter fun r => keeps q.filters (Row.columns r)).mergeSort fun a b =>
    compareRows q.order (Row.columns a) (Row.columns b) != .gt

/-- The page of the rows that are wanted. -/
def page (q : Query) (rows : List α) : Page α :=
  let wanted := q.select rows
  { count := wanted.length
    number := q.offset / q.limit + 1
    pages := (wanted.length + q.limit - 1) / q.limit
    size := q.limit
    rows := (wanted.drop q.offset).take q.limit }

end

end Query

end Dialogue
