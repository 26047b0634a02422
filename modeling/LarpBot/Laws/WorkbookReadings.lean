import LarpBot.Adapters.StatisticsWorkbooks
import Mathlib

/-!
# What a statistics workbook reads

`load` finds the last header, the last player and the footer by looking through the sheet. The lemmas
here say the same by cells: which cells make a sheet admitted, with which columns and which players. What
a formula reads is compared with what `number` reads in the same cells.
-/

namespace LarpBot

open Worksheets Atomic StatisticsWorkbook

/-! ## Results -/

/-- The number of a reading, where there is one. -/
def amount (x : Except Failure ℚ) : ℚ := x.toOption.getD 0

theorem eq_amount {x : Except Failure ℚ} {q : ℚ} (h : x = .ok q) : x = .ok (amount x) := by
  rw [h]
  rfl

theorem amounts_of_mapM {α : Type} {f : α → Except Failure ℚ} {as : List α} {qs : List ℚ}
    (h : as.mapM f = .ok qs) :
    (∀ a ∈ as, f a = .ok (amount (f a))) ∧ qs = as.map fun a => amount (f a) := by
  induction as generalizing qs with
  | nil => exact ⟨fun _ ha => (nomatch ha), (Except.ok.inj h).symm⟩
  | cons a as ih =>
    rw [List.mapM_cons] at h
    obtain ⟨q, hq, hrest⟩ := exists_of_bind h
    obtain ⟨rest, has, hqs⟩ := exists_of_bind hrest
    obtain rfl := Except.ok.inj hqs
    obtain ⟨hall, rfl⟩ := ih has
    constructor
    · intro b hb
      rcases List.mem_cons.mp hb with rfl | hb
      · exact eq_amount hq
      · exact hall b hb
    · rw [List.map_cons, hq]
      rfl

theorem mapM_of_amounts {α : Type} {f : α → Except Failure ℚ} {as : List α}
    (h : ∀ a ∈ as, f a = .ok (amount (f a))) : as.mapM f = .ok (as.map fun a => amount (f a)) := by
  induction as with
  | nil => rfl
  | cons a as ih =>
    rw [List.mapM_cons, h a List.mem_cons_self, ih fun b hb => h b (List.mem_cons_of_mem _ hb), List.map_cons]
    rfl

/-! ## Filled cells -/

section Filled

variable {sheet : Grid ℚ} {place : Place} {row column : Nat}

theorem isFilled_iff {value : Option CellValue} :
    isFilled value = true ↔ value ≠ none ∧ value ≠ some (.text "") := by
  unfold isFilled
  rw [Bool.and_eq_true, decide_eq_true_eq, decide_eq_true_eq]

theorem isFilled_text {text : String} (h : text ≠ "") : isFilled (some (.text text)) = true :=
  isFilled_iff.mpr ⟨nofun, fun htext => h (CellValue.text.inj (Option.some.inj htext))⟩

theorem cellValue_of_blank (h : sheet.entry place = {}) : cellValue sheet place = none := by
  rw [cellValue, h]
  rfl

theorem mem_of_isFilled (h : isFilled (cellValue sheet place) = true) :
    (place, sheet.entry place) ∈ sheet.cells.rows := by
  apply Grid.mem_of_entry
  intro hblank
  rw [cellValue_of_blank hblank] at h
  exact absurd h (by decide)

/-- The columns of the filled headers. -/
theorem mem_headers : column ∈ ((sheet.cells.rows.filter fun cell =>
      cell.1.1 = 1 && isFilled (readContent cell.2.content)).map fun cell => cell.1.2) ↔
    isFilled (cellValue sheet (1, column)) = true := by
  constructor
  · intro h
    obtain ⟨⟨⟨row, column⟩, entry⟩, hcell, rfl⟩ := List.mem_map.mp h
    obtain ⟨hmem, hheader⟩ := List.mem_filter.mp hcell
    rw [Bool.and_eq_true, decide_eq_true_eq] at hheader
    obtain ⟨hrow, hfilled⟩ := hheader
    obtain rfl : row = 1 := hrow
    rw [cellValue, Grid.entry_of_mem hmem]
    exact hfilled
  · intro h
    have hcell := mem_of_isFilled h
    exact List.mem_map.mpr ⟨_, List.mem_filter.mpr ⟨hcell, by simpa [cellValue] using h⟩, rfl⟩

theorem le_lastHeader (h : isFilled (cellValue sheet (1, column)) = true) : column ≤ lastHeader sheet :=
  List.le_max_of_le (mem_headers.mpr h) le_rfl

theorem lastHeader_eq (h : isFilled (cellValue sheet (1, column)) = true)
    (hlast : ∀ other, isFilled (cellValue sheet (1, other)) = true → other ≤ column) :
    lastHeader sheet = column := by
  apply Nat.le_antisymm
  · exact List.max_le_of_forall_le _ _ fun other hother => hlast other (mem_headers.mp hother)
  · exact le_lastHeader h

theorem lastHeader_congr {other : Grid ℚ} (h : ∀ column, other.entry (1, column) = sheet.entry (1, column)) :
    lastHeader other = lastHeader sheet := by
  have hle {first second : Grid ℚ} (h : ∀ column, first.entry (1, column) = second.entry (1, column)) :
      lastHeader first ≤ lastHeader second := by
    refine List.max_le_of_forall_le _ _ fun column hcolumn => ?_
    have hfilled := mem_headers.mp hcolumn
    rw [cellValue, h] at hfilled
    exact le_lastHeader hfilled
  exact Nat.le_antisymm (hle h) (hle fun column => (h column).symm)

end Filled

/-! ## The rows of the players -/

section Players

variable {book : StatisticsBook} {sheet : Grid ℚ} {row last : Nat}

theorem isPlayerRow_iff : book.isPlayerRow sheet row = true ↔
    (∃ name, cellValue sheet (row, 1) = some (.text name) ∧ name ∉ book.layout.footerTitles) ∧
      (sheet.entry (row, 1)).formula = none := by
  unfold StatisticsBook.isPlayerRow
  rw [Bool.and_eq_true, Option.isNone_iff_eq_none]
  apply and_congr_left'
  cases hvalue : cellValue sheet (row, 1) with
  | none => simp
  | some value => cases value <;> simp

/-- The rows behind the headers in their order. -/
theorem sorted_rows (sheet : Grid ℚ) :
    (sortBy id (sheet.rows.filter (· ≠ 1))).Pairwise fun a b => a ≤ b :=
  sortBy_pairwise id _

theorem mem_sorted_rows : row ∈ sortBy id (sheet.rows.filter (· ≠ 1)) ↔ row ∈ sheet.rows ∧ row ≠ 1 := by
  simp

/-- The head of an ascending list up to a number, where the next one ends it. -/
theorem takeWhile_eq_filter {p : Nat → Bool} {rows : List Nat} (hsorted : rows.Pairwise fun a b => a ≤ b)
    (hupto : ∀ row ∈ rows, row ≤ last → p row = true) (hnext : last + 1 ∈ rows) (hend : p (last + 1) = false) :
    rows.takeWhile p = rows.filter (· ≤ last) := by
  induction rows with
  | nil => exact nomatch hnext
  | cons row rows ih =>
    obtain ⟨hfirst, hrest⟩ := List.pairwise_cons.mp hsorted
    by_cases hle : row ≤ last
    · rw [List.takeWhile_cons_of_pos (hupto row List.mem_cons_self hle), List.filter_cons_of_pos (by simpa using hle)]
      have hnext' : last + 1 ∈ rows := by
        rcases List.mem_cons.mp hnext with h | h
        · omega
        · exact h
      rw [ih hrest (fun r hr => hupto r (List.mem_cons_of_mem _ hr)) hnext']
    · have hrow : row = last + 1 := by
        rcases List.mem_cons.mp hnext with h | h
        · exact h.symm
        · have := hfirst _ h
          omega
      have hnone : (row :: rows).filter (· ≤ last) = [] := by
        rw [List.filter_eq_nil_iff]
        intro r hr
        have hge : row ≤ r := by
          rcases List.mem_cons.mp hr with rfl | hr
          · exact Nat.le_refl _
          · exact hfirst r hr
        have : ¬ r ≤ last := by omega
        simpa using this
      rw [hnone, hrow, List.takeWhile_cons_of_neg (by simpa using hend)]

theorem getLast?_filter_le {rows : List Nat} (hsorted : rows.Pairwise fun a b => a ≤ b) (hlast : last ∈ rows) :
    (rows.filter (· ≤ last)).getLast? = some last := by
  have hkept := hsorted.filter (fun row => decide (row ≤ last))
  have hmem : last ∈ rows.filter (· ≤ last) := List.mem_filter.mpr ⟨hlast, by simp⟩
  cases hend : (rows.filter (· ≤ last)).getLast? with
  | none =>
    rw [List.getLast?_eq_none_iff.mp hend] at hmem
    exact nomatch hmem
  | some final =>
    have hle := (List.mem_filter.mp (List.mem_of_getLast? hend)).2
    rw [decide_eq_true_eq] at hle
    obtain ⟨front, hfront⟩ := List.getLast?_eq_some_iff.mp hend
    rw [hfront] at hmem hkept
    have hge : last ≤ final := by
      rcases List.mem_append.mp hmem with h | h
      · exact (List.pairwise_append.mp hkept).2.2 last h final (List.mem_singleton_self _)
      · exact Nat.le_of_eq (List.mem_singleton.mp h)
    rw [Nat.le_antisymm hle hge]

/-- The players end at a row when the rows up to it are players' and the next one is none's. -/
theorem lastPlayerRow_eq (hpositive : ∀ row ∈ sheet.rows, 1 ≤ row) (hlast : last = 1 ∨ last ∈ sheet.rows ∧ 1 < last)
    (hplayers : ∀ row ∈ sheet.rows, 1 < row → row ≤ last → book.isPlayerRow sheet row = true)
    (hnext : last + 1 ∈ sheet.rows) (hfooter : book.isPlayerRow sheet (last + 1) = false) :
    lastPlayerRow book sheet = last := by
  have hsorted := sorted_rows sheet
  have hmem (row : Nat) : row ∈ sortBy id (sheet.rows.filter (· ≠ 1)) ↔ row ∈ sheet.rows ∧ row ≠ 1 := mem_sorted_rows
  unfold lastPlayerRow
  generalize sortBy id (sheet.rows.filter (· ≠ 1)) = rows at hsorted hmem
  have hupto : ∀ row ∈ rows, row ≤ last → book.isPlayerRow sheet row = true := by
    intro row hrow hle
    obtain ⟨hin, hne⟩ := (hmem row).mp hrow
    have := hpositive row hin
    exact hplayers row hin (by omega) hle
  have hone : 1 ≤ last := by omega
  rw [takeWhile_eq_filter hsorted hupto ((hmem _).mpr ⟨hnext, by omega⟩) hfooter]
  rcases hlast with rfl | ⟨hin, hgt⟩
  · have hnone : rows.filter (· ≤ 1) = [] := by
      rw [List.filter_eq_nil_iff]
      intro row hrow
      obtain ⟨hin, hne⟩ := (hmem row).mp hrow
      have := hpositive row hin
      have : ¬ row ≤ 1 := by omega
      simpa using this
    rw [hnone]
    rfl
  · rw [getLast?_filter_le hsorted ((hmem last).mpr ⟨hin, by omega⟩)]
    rfl

end Players

end LarpBot
