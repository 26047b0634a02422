import LarpBot.Foundation.Table
import Mathlib

/-!
# Worksheets

A worksheet is a grid of cells, each with what it shows and with the text of the formula that this comes
from. A spreadsheet stores both: the shown value is a cache, and a program that edits the file without
a spreadsheet has to write caches that the formulas agree with. `Formula.value` is what a formula comes to
over the caches of the cells that it reads, and `Grid.Caches` says that a cell agrees with its formula.

The formulas are the ones with sums, differences and counts over ranges. A text is never read as a number.
Numbers are exact.
-/

namespace Worksheets

open Atomic

/-- A row and a column, counted from one. -/
abbrev Place := Nat × Nat

/-- What a cell shows. -/
inductive Content (N : Type)
  | blank
  | number (value : N)
  | text (value : String)
  | flag (value : Bool)
  | fault (code : String)
deriving DecidableEq, Repr

structure Entry (N : Type) where
  content : Content N := .blank
  formula : Option String := none
deriving DecidableEq, Repr

/-- The rows that are there, with or without cells, and the cells. -/
structure Grid (N : Type) where
  rows : List Nat
  cells : Table (Prod.fst : Place × Entry N → Place)

/-! ## Cells -/

namespace Grid

variable {N : Type}

/-- A missing cell is blank. -/
def entry (grid : Grid N) (place : Place) : Entry N :=
  ((grid.cells.find? place).map Prod.snd).getD {}

def put (place : Place) (entry : Entry N) (grid : Grid N) : Grid N where
  rows := if place.1 ∈ grid.rows then grid.rows else grid.rows ++ [place.1]
  cells := grid.cells.insert (place, entry)

/-- Remove cells. -/
def keepCells (p : Place → Bool) (grid : Grid N) : Grid N :=
  { grid with cells := grid.cells.filter fun cell => p cell.1 }

/-- Remove the rows behind one, with their cells. -/
def upTo (last : Nat) (grid : Grid N) : Grid N :=
  { grid.keepCells (fun place => place.1 ≤ last) with rows := grid.rows.filter (· ≤ last) }

variable {grid : Grid N} {place other : Place} {entry : Entry N}

@[simp] theorem entry_put :
    (grid.put place entry).entry other = if other = place then entry else grid.entry other := by
  unfold Grid.entry put
  rw [Table.find?_insert]
  by_cases h : other = place <;> simp [h]

theorem entry_put_self : (grid.put place entry).entry place = entry := by
  rw [entry_put, if_pos rfl]

theorem entry_put_of_ne (h : other ≠ place) : (grid.put place entry).entry other = grid.entry other := by
  rw [entry_put, if_neg h]

@[simp] theorem mem_rows_put {row : Nat} :
    row ∈ (grid.put place entry).rows ↔ row = place.1 ∨ row ∈ grid.rows := by
  unfold put
  by_cases h : place.1 ∈ grid.rows
  · rw [if_pos h]
    constructor
    · exact Or.inr
    · rintro (rfl | hrow)
      · exact h
      · exact hrow
  · rw [if_neg h, List.mem_append, List.mem_singleton, or_comm]

theorem entry_keepCells {p : Place → Bool} :
    (grid.keepCells p).entry place = if p place then grid.entry place else {} := by
  unfold Grid.entry keepCells
  rw [Table.find?_filter]
  cases hcell : grid.cells.find? place with
  | none => simp
  | some cell =>
    have hkey := Table.key_of_find? hcell
    by_cases h : p place = true
    · rw [Option.filter_some_pos (hkey ▸ h), if_pos h]
    · rw [Option.filter_some_neg (by simpa [hkey] using h), if_neg h]
      rfl

@[simp] theorem rows_keepCells {p : Place → Bool} : (grid.keepCells p).rows = grid.rows := rfl

theorem entry_upTo {last : Nat} :
    (grid.upTo last).entry place = if place.1 ≤ last then grid.entry place else {} := by
  have h : (grid.upTo last).entry place = (grid.keepCells fun place => decide (place.1 ≤ last)).entry place := rfl
  rw [h, entry_keepCells]
  simp only [decide_eq_true_eq]

@[simp] theorem mem_rows_upTo {last row : Nat} : row ∈ (grid.upTo last).rows ↔ row ∈ grid.rows ∧ row ≤ last := by
  simp [upTo]

theorem entry_of_mem (h : (place, entry) ∈ grid.cells.rows) : grid.entry place = entry := by
  unfold Grid.entry
  rw [Table.find?_key h]
  rfl

theorem mem_of_entry (h : grid.entry place ≠ {}) : (place, grid.entry place) ∈ grid.cells.rows := by
  unfold Grid.entry at h ⊢
  cases hcell : grid.cells.find? place with
  | none =>
    rw [hcell] at h
    exact absurd rfl h
  | some cell =>
    obtain ⟨hmem, hkey⟩ := Table.find?_eq_some_iff.mp hcell
    rw [← hkey]
    exact hmem

/-! ## Several cells -/

/-- Write one cell after the other. -/
def write (cells : List (Place × Entry N)) (grid : Grid N) : Grid N :=
  cells.foldl (fun grid cell => grid.put cell.1 cell.2) grid

@[simp] theorem write_nil : grid.write [] = grid := rfl

@[simp] theorem write_cons {cell : Place × Entry N} {cells : List (Place × Entry N)} :
    grid.write (cell :: cells) = (grid.put cell.1 cell.2).write cells := rfl

theorem write_append {cells more : List (Place × Entry N)} :
    grid.write (cells ++ more) = (grid.write cells).write more :=
  List.foldl_append

theorem entry_write_of_notMem {cells : List (Place × Entry N)} (h : place ∉ cells.map Prod.fst) :
    (grid.write cells).entry place = grid.entry place := by
  induction cells generalizing grid with
  | nil => rfl
  | cons cell cells ih =>
    rw [List.map_cons, List.mem_cons, not_or] at h
    rw [write_cons, ih h.2, entry_put_of_ne h.1]

/-- A place that is written once has what is written there. -/
theorem entry_write_of_mem {cells : List (Place × Entry N)} (hnodup : (cells.map Prod.fst).Nodup)
    (h : (place, entry) ∈ cells) : (grid.write cells).entry place = entry := by
  induction cells generalizing grid with
  | nil => exact nomatch h
  | cons cell cells ih =>
    rw [List.map_cons, List.nodup_cons] at hnodup
    rw [write_cons]
    rcases List.mem_cons.mp h with rfl | hcells
    · rw [entry_write_of_notMem hnodup.1, entry_put_self]
    · exact ih hnodup.2 hcells

theorem mem_rows_write {cells : List (Place × Entry N)} {row : Nat} :
    row ∈ (grid.write cells).rows ↔ row ∈ grid.rows ∨ ∃ place ∈ cells.map Prod.fst, place.1 = row := by
  induction cells generalizing grid with
  | nil => simp
  | cons cell cells ih =>
    rw [write_cons, ih, mem_rows_put]
    simp only [List.map_cons, List.mem_cons, exists_eq_or_imp]
    tauto

end Grid

/-! ## Formulas -/

/-- `A`, …, `Z`, `AA`, …; the first argument bounds the number of letters. -/
def columnLettersBelow : Nat → Nat → List Char
  | 0, _ => []
  | _, 0 => []
  | fuel + 1, column + 1 =>
    columnLettersBelow fuel (column / 26) ++ [Char.ofNat ('A'.toNat + column % 26)]

def columnLetters (column : Nat) : String :=
  String.ofList (columnLettersBelow column column)

def Place.text (place : Place) : String :=
  s!"{columnLetters place.2}{place.1}"

/-- The places between two corners. -/
structure Range where
  top : Nat
  left : Nat
  bottom : Nat
  right : Nat
deriving DecidableEq, Repr

namespace Range

/-- Row by row; the corners may be in any order. -/
def places (range : Range) : List Place :=
  let rows := List.range' (min range.top range.bottom) (max range.top range.bottom + 1 - min range.top range.bottom)
  let columns :=
    List.range' (min range.left range.right) (max range.left range.right + 1 - min range.left range.right)
  rows.flatMap fun row => columns.map fun column => (row, column)

/-- The places of one column from a row to another one. -/
def column (column top bottom : Nat) : Range := ⟨top, column, bottom, column⟩

/-- The places of one row from a column to another one. -/
def row (row left right : Nat) : Range := ⟨row, left, row, right⟩

def text (range : Range) : String :=
  s!"{Place.text (range.top, range.left)}:{Place.text (range.bottom, range.right)}"

theorem places_column {column top bottom : Nat} (h : top ≤ bottom) : (Range.column column top bottom).places =
    (List.range' top (bottom + 1 - top)).map fun row => (row, column) := by
  have hone : column + 1 - column = 1 := by omega
  simp only [places, Range.column, Nat.min_eq_left h, Nat.max_eq_right h, Nat.min_self, Nat.max_self, hone,
    List.range'_one, List.map_cons, List.map_nil]
  exact List.map_eq_flatMap.symm

theorem places_row {row left right : Nat} (h : left ≤ right) : (Range.row row left right).places =
    (List.range' left (right + 1 - left)).map fun column => (row, column) := by
  have hone : row + 1 - row = 1 := by omega
  simp [places, Range.row, Nat.min_eq_left h, Nat.max_eq_right h, hone]

end Range

/-- The comparisons of a criterion. -/
inductive Criterion
  | above
  | atLeast
  | equal
deriving DecidableEq, Repr

def Criterion.sign : Criterion → String
  | .above => ">"
  | .atLeast => ">="
  | .equal => "="

inductive Formula
  | ref (place : Place)
  | sum (range : Range)
  | add (left right : Formula)
  | sub (left right : Formula)
  /-- `COUNTIF(range,">0")`. -/
  | countIf (range : Range) (criterion : Criterion) (bound : Nat)
  /-- `SUMPRODUCT(--(range>other+margin))`, row by row. -/
  | countAbove (range other : Range) (margin : Nat)
deriving DecidableEq, Repr

def Formula.text : Formula → String
  | .ref place => place.text
  | .sum range => s!"SUM({range.text})"
  | .add left right => left.text ++ "+" ++ right.text
  | .sub left right => left.text ++ "-" ++ right.text
  | .countIf range criterion bound => s!"COUNTIF({range.text},\"{criterion.sign}{bound}\")"
  | .countAbove range other margin => s!"SUMPRODUCT(--({range.text}>{other.text}+{margin}))"

/-- The places that a formula reads. -/
def Formula.reads : Formula → List Place
  | .ref place => [place]
  | .sum range => range.places
  | .add left right => left.reads ++ right.reads
  | .sub left right => left.reads ++ right.reads
  | .countIf range _ _ => range.places
  | .countAbove range other _ => range.places ++ other.places

section Values

variable {N : Type} [Ring N] [LinearOrder N]

/-- The operand of an arithmetic operator: a blank is zero and a flag is zero or one. -/
def Content.operand : Content N → Option N
  | .blank => some 0
  | .number value => some value
  | .flag value => some (if value then 1 else 0)
  | .text _ | .fault _ => none

/-- What a cell adds to a `SUM`, which passes over texts and flags. -/
def Content.addend : Content N → Option N
  | .number value => some value
  | .fault _ => none
  | .blank | .text _ | .flag _ => some 0

def Content.number? : Content N → Option N
  | .number value => some value
  | .blank | .text _ | .flag _ | .fault _ => none

def Criterion.holds : Criterion → N → N → Bool
  | .above, bound, value => bound < value
  | .atLeast, bound, value => bound ≤ value
  | .equal, bound, value => value = bound

/-- The value of a formula, or `none` for an error. -/
def Formula.value (grid : Grid N) : Formula → Option N
  | .ref place => (grid.entry place).content.operand
  | .sum range => (range.places.mapM fun place => (grid.entry place).content.addend).map List.sum
  | .add left right => return (← left.value grid) + (← right.value grid)
  | .sub left right => return (← left.value grid) - (← right.value grid)
  | .countIf range criterion bound =>
    some ((range.places.countP fun place =>
      (grid.entry place).content.number?.any (criterion.holds (bound : N)) : Nat) : N)
  | .countAbove range other margin => do
    let values ← range.places.mapM fun place => (grid.entry place).content.number?
    let others ← other.places.mapM fun place => (grid.entry place).content.operand
    return (((values.zip others).countP fun (value, other) => other + (margin : N) < value : Nat) : N)

theorem mapM_congr {m : Type → Type} [Monad m] [LawfulMonad m] {α β : Type} {f g : α → m β} {l : List α}
    (h : ∀ a ∈ l, f a = g a) : l.mapM f = l.mapM g := by
  induction l with
  | nil => rfl
  | cons a l ih =>
    rw [List.mapM_cons, List.mapM_cons, h a List.mem_cons_self, ih fun b hb => h b (List.mem_cons_of_mem _ hb)]

/-- A formula comes to the same where the places that it reads show the same. -/
theorem Formula.value_congr {grid other : Grid N} {formula : Formula}
    (h : ∀ place ∈ formula.reads, (grid.entry place).content = (other.entry place).content) :
    formula.value grid = formula.value other := by
  induction formula with
  | ref place => rw [Formula.value, Formula.value, h place (List.mem_singleton_self _)]
  | sum range =>
    have hsum := mapM_congr (l := range.places) fun place hplace => congrArg Content.addend (h place hplace)
    rw [Formula.value, Formula.value, hsum]
  | add left right ihl ihr =>
    rw [Formula.value, Formula.value, ihl fun place hplace => h place (List.mem_append_left _ hplace),
      ihr fun place hplace => h place (List.mem_append_right _ hplace)]
  | sub left right ihl ihr =>
    rw [Formula.value, Formula.value, ihl fun place hplace => h place (List.mem_append_left _ hplace),
      ihr fun place hplace => h place (List.mem_append_right _ hplace)]
  | countIf range criterion bound =>
    have hcount := List.countP_congr (l := range.places)
      (p := fun place => (grid.entry place).content.number?.any (criterion.holds (bound : N)))
      (q := fun place => (other.entry place).content.number?.any (criterion.holds (bound : N)))
      fun place hplace => by rw [h place hplace]
    rw [Formula.value, Formula.value, hcount]
  | countAbove range others margin =>
    have hleft := mapM_congr (l := range.places) fun place hplace =>
      congrArg Content.number? (h place (List.mem_append_left _ hplace))
    have hright := mapM_congr (l := others.places) fun place hplace =>
      congrArg Content.operand (h place (List.mem_append_right _ hplace))
    rw [Formula.value, Formula.value, hleft, hright]

/-! ## Caches -/

/-- The cell has this formula, and shows what it comes to. -/
def Grid.Caches (grid : Grid N) (place : Place) (formula : Formula) : Prop :=
  (grid.entry place).formula = some formula.text ∧
    ∃ value, (grid.entry place).content = .number value ∧ formula.value grid = some value

namespace Grid

variable {grid : Grid N} {place other : Place} {entry : Entry N} {formula : Formula}

/-- A cell that does not read itself agrees with its formula when it is written with its value. -/
theorem caches_put {value : N} (hself : place ∉ formula.reads) (hvalue : formula.value grid = some value) :
    (grid.put place ⟨.number value, some formula.text⟩).Caches place formula := by
  refine ⟨by rw [entry_put_self], value, by rw [entry_put_self], ?_⟩
  rw [← hvalue]
  apply Formula.value_congr
  intro read hread
  rw [entry_put_of_ne fun h : read = place => hself (h ▸ hread)]

/-- It agrees still when another cell is written that its formula does not read. -/
theorem Caches.put (h : grid.Caches place formula) (hplace : place ≠ other) (hreads : other ∉ formula.reads) :
    (grid.put other entry).Caches place formula := by
  obtain ⟨hformula, value, hcontent, hvalue⟩ := h
  refine ⟨by rwa [entry_put_of_ne hplace], value, by rwa [entry_put_of_ne hplace], ?_⟩
  rw [← hvalue]
  apply Formula.value_congr
  intro read hread
  rw [entry_put_of_ne fun h : read = other => hreads (h ▸ hread)]

end Grid

end Values

end Worksheets
