import LarpBot.Laws.WorkbookRefreshes
import Mathlib

/-!
# The formulas of a statistics workbook

`refresh` writes each number next to the formula that a spreadsheet would compute it with. On a sheet of
plain numbers the two agree in every cell that it writes: the totals of the players, the counts below
them and the difference of two counts. The cells of the players are settled first and are not written
again, so each cell of the footer is settled when it is written.
-/

namespace LarpBot

open Worksheets Atomic

namespace StatisticsWorkbook

variable {w w' : StatisticsWorkbook}

/-! ## Plain numbers -/

def content (w : StatisticsWorkbook) (place : Place) : Content ℚ := (w.sheet.entry place).content

/-- A blank or a number. -/
def IsPlain (content : Content ℚ) : Prop :=
  content = .blank ∨ ∃ q, content = .number q

/-- A blank, a number or a text: what a game has for a player. -/
def IsMark (content : Content ℚ) : Prop :=
  IsPlain content ∨ ∃ text, content = .text text

/-- What a spreadsheet reads as the program does: no flags among the numbers, and for the masters
no blanks among the games before the season and no negative marks. -/
structure Plain (w : StatisticsWorkbook) : Prop where
  carried : ∀ row ∈ w.playerRows, IsPlain (w.content (row, 3))
  marks : ∀ row ∈ w.playerRows, ∀ column ∈ w.gameColumns, IsMark (w.content (row, column))
  counted : w.book = .masters → ∀ row ∈ w.playerRows, (∃ q, w.content (row, 3) = .number q) ∧
    ∀ column ∈ w.gameColumns, ∀ q, w.content (row, column) = .number q → 0 ≤ q

section Numbers

variable {place : Place} {sumCell : Bool} {q : ℚ}

theorem number_of_number (h : w.content place = .number q) : w.number place sumCell = .ok q := by
  unfold content at h
  unfold number
  generalize w.sheet.entry place = entry at h
  obtain ⟨content, formula⟩ := entry
  obtain rfl : content = .number q := h
  rfl

theorem number_of_blank (h : w.content place = .blank) (hnumber : w.number place sumCell = .ok q) : q = 0 := by
  unfold content at h
  unfold number at hnumber
  generalize w.sheet.entry place = entry at h hnumber
  obtain ⟨content, formula⟩ := entry
  obtain rfl : content = .blank := h
  simp only [Bool.and_false, Bool.false_eq_true, if_false] at hnumber
  split at hnumber
  · exact (Except.ok.inj hnumber).symm
  · exact nomatch hnumber

theorem number_of_text {text : String} (h : w.content place = .text text) : w.number place true = .ok 0 := by
  unfold content at h
  unfold number
  generalize w.sheet.entry place = entry at h
  obtain ⟨content, formula⟩ := entry
  obtain rfl : content = .text text := h
  rfl

theorem operand_of_plain (h : IsPlain (w.content place)) (hnumber : w.number place sumCell = .ok q) :
    (w.content place).operand = some q := by
  rcases h with hblank | ⟨r, hr⟩
  · rw [hblank, number_of_blank hblank hnumber]
    rfl
  · rw [number_of_number hr] at hnumber
    rw [hr, Except.ok.inj hnumber]
    rfl

theorem addend_of_mark (h : IsMark (w.content place)) (hnumber : w.number place true = .ok q) :
    (w.content place).addend = some q := by
  rcases h with (hblank | ⟨r, hr⟩) | ⟨text, htext⟩
  · rw [hblank, number_of_blank hblank hnumber]
    rfl
  · rw [number_of_number hr] at hnumber
    rw [hr, Except.ok.inj hnumber]
    rfl
  · rw [number_of_text htext] at hnumber
    rw [htext, ← Except.ok.inj hnumber]
    rfl

/-- A criterion that zero does not meet passes over blanks. -/
theorem any_of_plain {criterion : ℚ → Bool} (h : IsPlain (w.content place))
    (hzero : criterion 0 = false ∨ w.content place ≠ .blank) (hnumber : w.number place sumCell = .ok q) :
    (w.content place).number?.any criterion = criterion q := by
  rcases h with hblank | ⟨r, hr⟩
  · rcases hzero with hzero | hfilled
    · rw [hblank, number_of_blank hblank hnumber, hzero]
      rfl
    · exact absurd hblank hfilled
  · rw [number_of_number hr] at hnumber
    rw [hr, Except.ok.inj hnumber]
    rfl

end Numbers

/-! ## Lists of readings -/

section Lists

variable {α : Type} {f : α → Except Failure ℚ} {as : List α} {qs : List ℚ}

theorem mapM_transfer {g : α → Option ℚ} (hg : ∀ a ∈ as, ∀ q, f a = .ok q → g a = some q)
    (h : as.mapM f = .ok qs) : as.mapM g = some qs := by
  induction as generalizing qs with
  | nil => rw [← Except.ok.inj h]; rfl
  | cons a as ih =>
    rw [List.mapM_cons] at h
    obtain ⟨q, hq, hrest⟩ := exists_of_bind h
    obtain ⟨rest, has, hqs⟩ := exists_of_bind hrest
    obtain rfl := Except.ok.inj hqs
    rw [List.mapM_cons, hg a List.mem_cons_self q hq, ih (fun b hb => hg b (List.mem_cons_of_mem _ hb)) has]
    rfl

theorem countP_transfer {p : α → Bool} {r : ℚ → Bool} (hp : ∀ a ∈ as, ∀ q, f a = .ok q → p a = r q)
    (h : as.mapM f = .ok qs) : as.countP p = qs.countP r := by
  induction as generalizing qs with
  | nil => rw [← Except.ok.inj h]; rfl
  | cons a as ih =>
    rw [List.mapM_cons] at h
    obtain ⟨q, hq, hrest⟩ := exists_of_bind h
    obtain ⟨rest, has, hqs⟩ := exists_of_bind hrest
    obtain rfl := Except.ok.inj hqs
    have hrec := ih (fun b hb => hp b (List.mem_cons_of_mem _ hb)) has
    rw [List.countP_cons, List.countP_cons, hrec, hp a List.mem_cons_self q hq]

theorem mapM_map {β γ : Type} {m : Type → Type} [Monad m] [LawfulMonad m] {g : β → m γ} {e : α → β} :
    (as.map e).mapM g = as.mapM fun a => g (e a) := by
  induction as with
  | nil => simp
  | cons a as ih => simp [ih]

end Lists

/-! ## The values of the formulas -/

section Values

theorem places_playerCells (hplayers : 2 ≤ w.lastPlayer) (column : Nat) :
    (w.playerCells column).places = w.playerRows.map fun row => (row, column) := by
  have hlength : w.lastPlayer + 1 - 2 = w.lastPlayer - 1 := by omega
  rw [playerCells, Range.places_column hplayers, hlength]
  rfl

theorem value_total (h : w.Plain) {row : Nat} (hrow : row ∈ w.playerRows) {q : ℚ} (hq : w.total row = .ok q) :
    (w.totalFormula row).value w.sheet = some q := by
  unfold total at hq
  obtain ⟨carried, hcarried, hrest⟩ := exists_of_bind hq
  obtain ⟨games, hgames, hsum⟩ := exists_of_bind hrest
  obtain rfl := Except.ok.inj hsum
  have hthird : w.layout.carriedColumn = 3 := by
    unfold layout
    cases w.book <;> rfl
  rw [hthird] at hcarried
  have hoperand : (Formula.ref (row, 3)).value w.sheet = some carried :=
    operand_of_plain (h.carried row hrow) hcarried
  unfold totalFormula
  rw [hthird]
  by_cases hcolumns : w.layout.gameColumn ≤ w.lastColumn
  · have hadded : (Formula.sum (.row row w.layout.gameColumn w.lastColumn)).value w.sheet = some games.sum := by
      have haddends := mapM_transfer (fun column hcolumn q hq => addend_of_mark (h.marks row hrow column hcolumn) hq)
        hgames
      rw [Formula.value, Range.places_row hcolumns, mapM_map]
      exact congrArg (Option.map List.sum) haddends
    rw [if_pos hcolumns, Formula.value, hoperand, hadded]
    rfl
  · have hnone : w.gameColumns = [] := by
      unfold gameColumns
      rw [show w.lastColumn + 1 - w.layout.gameColumn = 0 by omega]
      rfl
    rw [hnone] at hgames
    have hnil : games = [] := (Except.ok.inj hgames).symm
    rw [if_neg hcolumns, hoperand, hnil, List.sum_nil, add_zero]

theorem value_sum (hplayers : 2 ≤ w.lastPlayer) {column : Nat}
    (hmarks : ∀ row ∈ w.playerRows, IsMark (w.content (row, column))) {qs : List ℚ}
    (h : w.playerNumbers column true = .ok qs) :
    (Formula.sum (w.playerCells column)).value w.sheet = some qs.sum := by
  have haddends := mapM_transfer (fun row hrow q hq => addend_of_mark (hmarks row hrow) hq) h
  rw [Formula.value, places_playerCells hplayers, mapM_map]
  exact congrArg (Option.map List.sum) haddends

theorem value_countIf (hplayers : 2 ≤ w.lastPlayer) {column bound : Nat} {criterion : Criterion}
    (hplain : ∀ row ∈ w.playerRows, IsPlain (w.content (row, column)))
    (hzero : criterion.holds (bound : ℚ) 0 = false ∨ ∀ row ∈ w.playerRows, w.content (row, column) ≠ .blank)
    {qs : List ℚ} (h : w.playerNumbers column = .ok qs) :
    (Formula.countIf (w.playerCells column) criterion bound).value w.sheet =
      some ((qs.countP (criterion.holds (bound : ℚ)) : Nat) : ℚ) := by
  have hcount : (w.playerRows.countP fun row =>
      (w.content (row, column)).number?.any (criterion.holds (bound : ℚ))) =
        qs.countP (criterion.holds (bound : ℚ)) := by
    refine countP_transfer (fun row hrow q hq => any_of_plain (hplain row hrow) ?_ hq) h
    exact hzero.imp_right fun hall => hall row hrow
  rw [Formula.value, places_playerCells hplayers, List.countP_map]
  exact congrArg (fun n : Nat => some (n : ℚ)) hcount

theorem value_positive (hplayers : 2 ≤ w.lastPlayer) {column : Nat}
    (hplain : ∀ row ∈ w.playerRows, IsPlain (w.content (row, column))) {qs : List ℚ}
    (h : w.playerNumbers column = .ok qs) :
    (Formula.countIf (w.playerCells column) .above 0).value w.sheet = some ((qs.countP (0 < ·) : Nat) : ℚ) := by
  have hzero : Criterion.above.holds (((0 : Nat) : ℚ)) 0 = false := by simp [Criterion.holds]
  have hcriterion : Criterion.above.holds ((0 : Nat) : ℚ) = fun q => decide (0 < q) := by
    funext q
    simp [Criterion.holds]
  rw [← hcriterion]
  exact value_countIf hplayers hplain (.inl hzero) h

/-- A count over a column where each player has a number. -/
theorem value_countIf_numbers (hplayers : 2 ≤ w.lastPlayer) {column bound : Nat} {criterion : Criterion} {f : Nat → ℚ}
    (hnumbers : ∀ row ∈ w.playerRows, w.content (row, column) = .number (f row)) :
    (Formula.countIf (w.playerCells column) criterion bound).value w.sheet =
      some (((w.playerRows.map f).countP (criterion.holds (bound : ℚ)) : Nat) : ℚ) := by
  have hcount : (w.playerRows.countP fun row =>
      (w.content (row, column)).number?.any (criterion.holds (bound : ℚ))) =
        (w.playerRows.map f).countP (criterion.holds (bound : ℚ)) := by
    rw [List.countP_map]
    exact List.countP_congr fun row hrow => by simp [hnumbers row hrow, Content.number?]
  rw [Formula.value, places_playerCells hplayers, List.countP_map]
  exact congrArg (fun n : Nat => some (n : ℚ)) hcount

theorem value_countAbove (hplayers : 2 ≤ w.lastPlayer) {margin : Nat} {totals carried : List ℚ}
    (htotals : w.playerRows.mapM (fun row => (w.content (row, 2)).number?) = some totals)
    (hplain : ∀ row ∈ w.playerRows, IsPlain (w.content (row, 3))) (h : w.playerNumbers 3 = .ok carried) :
    (Formula.countAbove (w.playerCells 2) (w.playerCells 3) margin).value w.sheet =
      some (((totals.zip carried).countP fun (total, carried) => carried + (margin : ℚ) < total : Nat) : ℚ) := by
  have hothers := mapM_transfer (fun row hrow q hq => operand_of_plain (hplain row hrow) hq) h
  rw [Formula.value, places_playerCells hplayers, places_playerCells hplayers, mapM_map, mapM_map]
  exact Option.bind_eq_some_iff.mpr ⟨totals, htotals, Option.bind_eq_some_iff.mpr ⟨carried, hothers, rfl⟩⟩

end Values

/-! ## The footer -/

section Footer

variable {v : StatisticsWorkbook} {cells : List (Place × Formula)}

theorem Beneath.playerRows {column : Nat} (h : Beneath column w w') : w'.playerRows = w.playerRows :=
  (congrArg StatisticsWorkbook.playerRows h.same).trans rfl

theorem Beneath.gameColumns {column : Nat} (h : Beneath column w w') : w'.gameColumns = w.gameColumns :=
  (congrArg StatisticsWorkbook.gameColumns h.same).trans rfl

theorem Beneath.playerCells {column : Nat} (h : Beneath column w w') (other : Nat) :
    w'.playerCells other = w.playerCells other :=
  (congrArg (fun w => StatisticsWorkbook.playerCells w other) h.same).trans rfl

theorem Beneath.content {column : Nat} (h : Beneath column w w') {place : Place} (hplace : place.1 ≤ w.lastPlayer) :
    w'.content place = w.content place := by
  unfold StatisticsWorkbook.content
  rw [h.kept place fun hin => absurd hin.1.1 (Nat.not_lt.mpr hplace)]

/-- Plain numbers stay while the footer is written. -/
theorem Plain.beneath {column : Nat} (h : w.Plain) (hbeneath : Beneath column w w') : w'.Plain := by
  have hbook : w'.book = w.book := (congrArg StatisticsWorkbook.book hbeneath.same).trans rfl
  have hcontent (row other : Nat) (hrow : row ∈ w.playerRows) : w'.content (row, other) = w.content (row, other) :=
    hbeneath.content (mem_playerRows.mp hrow).2
  refine ⟨?_, ?_, ?_⟩
  · intro row hrow
    rw [hbeneath.playerRows] at hrow
    rw [hcontent row 3 hrow]
    exact h.carried row hrow
  · intro row hrow other hother
    rw [hbeneath.playerRows] at hrow
    rw [hbeneath.gameColumns] at hother
    rw [hcontent row other hrow]
    exact h.marks row hrow other hother
  · intro hmasters row hrow
    rw [hbeneath.playerRows] at hrow
    rw [hbeneath.gameColumns, hcontent row 3 hrow]
    obtain ⟨hcarried, hmarks⟩ := h.counted (hbook.symm.trans hmasters) row hrow
    refine ⟨hcarried, fun other hother q hq => ?_⟩
    rw [hcontent row other hrow] at hq
    exact hmarks other hother q hq

/-- These cells agree with their formulas, which read the cells of the players only. -/
structure Settled (v w : StatisticsWorkbook) (cells : List (Place × Formula)) : Prop where
  beneath : Beneath 2 v w
  caches : ∀ cell ∈ cells, w.sheet.Caches cell.1 cell.2
  reads : ∀ cell ∈ cells, ∀ place ∈ cell.2.reads, place.1 ≤ v.lastPlayer

theorem Settled.refl : Settled v v [] :=
  ⟨.refl, fun _ h => (nomatch h), fun _ h => (nomatch h)⟩

theorem Settled.subset {other : List (Place × Formula)} (h : Settled v w cells)
    (hsub : ∀ cell ∈ other, cell ∈ cells) :
    Settled v w other :=
  ⟨h.beneath, fun cell hcell => h.caches cell (hsub cell hcell), fun cell hcell => h.reads cell (hsub cell hcell)⟩

/-- A new cell of the footer, written with the value of its formula. -/
theorem Settled.setResult {place : Place} {formula : Formula} {value : ℚ} (h : Settled v w cells)
    (hrow : v.InFooter place.1) (hcolumn : 2 ≤ place.2) (hnew : place ∉ cells.map Prod.fst)
    (hreads : ∀ read ∈ formula.reads, read.1 ≤ v.lastPlayer) (hvalue : formula.value w.sheet = some value) :
    Settled v (w.setResult place value formula) ((place, formula) :: cells) where
  beneath := h.beneath.trans (beneath_setResult (h.beneath.inFooter.mpr hrow) hcolumn)
  caches cell hcell := by
    have hself (formula : Formula) (hreads : ∀ read ∈ formula.reads, read.1 ≤ v.lastPlayer) :
        place ∉ formula.reads := fun hin => absurd (hreads place hin) (Nat.not_le.mpr hrow.1)
    rcases List.mem_cons.mp hcell with rfl | hold
    · exact Grid.caches_put (hself _ hreads) hvalue
    · refine (h.caches cell hold).put ?_ (hself _ (h.reads cell hold))
      rintro rfl
      exact hnew (List.mem_map_of_mem hold)
  reads cell hcell := by
    rcases List.mem_cons.mp hcell with rfl | hold
    · exact hreads
    · exact h.reads cell hold

/-- Several cells of one row of the footer. -/
theorem Settled.setResults {row : Nat} {formula : Nat → Formula}
    {value : StatisticsWorkbook → Nat → Except Failure ℚ} {columns : List Nat} (h : Settled v w cells)
    (hrow : v.InFooter row) (hcolumns : ∀ column ∈ columns, 2 ≤ column) (hnodup : columns.Nodup)
    (hnew : ∀ column ∈ columns, (row, column) ∉ cells.map Prod.fst)
    (hreads : ∀ column ∈ columns, ∀ read ∈ (formula column).reads, read.1 ≤ v.lastPlayer)
    (hvalue : ∀ w, Beneath 2 v w → ∀ column ∈ columns, ∀ q, value w column = .ok q →
      (formula column).value w.sheet = some q)
    (hwrite : w.setResults (fun column => (row, column)) formula value columns = .ok w') :
    Settled v w' (columns.map (fun column => ((row, column), formula column)) ++ cells) := by
  induction columns generalizing w cells with
  | nil =>
    obtain rfl := Except.ok.inj hwrite
    exact h
  | cons column columns ih =>
    obtain ⟨result, hresult, hrest⟩ := exists_of_bind hwrite
    obtain ⟨hfresh, hnodup⟩ := List.nodup_cons.mp hnodup
    have hin := List.mem_cons_self (a := column) (l := columns)
    have hfirst := h.setResult hrow (hcolumns column hin) (hnew column hin) (hreads column hin)
      (hvalue w h.beneath column hin result hresult)
    have hlater := ih hfirst (fun other hother => hcolumns other (List.mem_cons_of_mem _ hother)) hnodup
      (fun other hother => ?_) (fun other hother => hreads other (List.mem_cons_of_mem _ hother))
      (fun w hw other hother => hvalue w hw other (List.mem_cons_of_mem _ hother)) hrest
    · refine hlater.subset fun cell hcell => ?_
      simp only [List.map_cons, List.cons_append, List.mem_cons, List.mem_append] at hcell ⊢
      tauto
    · rw [List.map_cons, List.mem_cons, not_or]
      refine ⟨fun hsame => hfresh ?_, hnew other (List.mem_cons_of_mem _ hother)⟩
      rw [← (Prod.mk.inj hsame).2]
      exact hother

theorem reads_playerCells (hplayers : 2 ≤ w.lastPlayer) {column : Nat} {place : Place}
    (h : place ∈ (w.playerCells column).places) : place.1 ≤ w.lastPlayer := by
  rw [places_playerCells hplayers] at h
  obtain ⟨row, hrow, rfl⟩ := List.mem_map.mp h
  exact (mem_playerRows.mp hrow).2

/-- The number of players at each game. -/
theorem Settled.writeAttendance (h : Settled v w cells) (hplain : v.Plain) (hplayers : 2 ≤ v.lastPlayer)
    (hnew : ∀ column ∈ v.gameColumns, (v.summary, column) ∉ cells.map Prod.fst)
    (hwrite : w.writeAttendance = .ok w') :
    Settled v w' (v.gameColumns.map (fun column => ((v.summary, column), Formula.sum (v.playerCells column))) ++
      cells) := by
  unfold StatisticsWorkbook.writeAttendance at hwrite
  rw [h.beneath.gameColumns, h.beneath.summary] at hwrite
  simp only [h.beneath.playerCells] at hwrite
  refine h.setResults inFooter_summary (fun column hcolumn => two_le_gameColumns hcolumn) List.nodup_range' hnew
    (fun column hcolumn read hread => reads_playerCells hplayers hread) (fun w hw column hcolumn q hq => ?_) hwrite
  obtain ⟨numbers, hnumbers, hsum⟩ := exists_of_bind hq
  obtain rfl := Except.ok.inj hsum
  rw [← hw.playerCells]
  refine value_sum (hw.lastPlayer ▸ hplayers) (fun row hrow => ?_) hnumbers
  exact (hplain.beneath hw).marks row hrow column (hw.gameColumns ▸ hcolumn)

end Footer

/-! ## Everything that is written -/

section Written

variable {v : StatisticsWorkbook}

/-- The cells that `refresh` writes with a formula. -/
def resultFormulas (w : StatisticsWorkbook) : List (Place × Formula) :=
  (w.playerRows.map fun row => ((row, w.layout.totalColumn), w.totalFormula row)) ++
    (w.gameColumns.map fun column => ((w.summary, column), .sum (w.playerCells column))) ++
    match w.book with
    | .attendance => [
      ((w.summary, 2), .countIf (w.playerCells 2) .above 0),
      ((w.summary, 3), .countIf (w.playerCells 3) .above 0),
      ((w.summary + 1, 2), .countAbove (w.playerCells 2) (w.playerCells 3) 0),
      ((w.summary + 3, 2), .countAbove (w.playerCells 2) (w.playerCells 3) 3),
      ((w.summary + 2, 2), .sub (.ref (w.summary, 2)) (.ref (w.summary, 3)))]
    | .masters => (w.playerRows.map fun row => ((row, 2), .sub (.ref (row, 4)) (.ref (row, 3)))) ++ [
      ((w.summary, 2), .countIf (w.playerCells 2) .atLeast 0),
      ((w.summary + 1, 2), .countIf (w.playerCells 2) .above 0),
      ((w.summary + 2, 2), .countIf (w.playerCells 3) .equal 0)]

theorem reads_totalFormula {row : Nat} {place : Place} (h : place ∈ (w.totalFormula row).reads) :
    place.1 = row ∧ (place.2 = 3 ∨ place.2 ∈ w.gameColumns) := by
  have hthird : w.layout.carriedColumn = 3 := by
    unfold layout
    cases w.book <;> rfl
  unfold totalFormula at h
  rw [hthird] at h
  split at h
  · next hcolumns =>
    rcases List.mem_append.mp h with h | h
    · obtain rfl := List.mem_singleton.mp h
      exact ⟨rfl, .inl rfl⟩
    · rw [Formula.reads, Range.places_row hcolumns] at h
      obtain ⟨column, hcolumn, rfl⟩ := List.mem_map.mp h
      exact ⟨rfl, .inr hcolumn⟩
  · obtain rfl := List.mem_singleton.mp h
    exact ⟨rfl, .inl rfl⟩

/-- The total of a player agrees with its formula. -/
theorem Refreshed.caches_total (h : Refreshed w w') (hplain : w.Plain) {row : Nat} (hrow : row ∈ w.playerRows) :
    w'.sheet.Caches (row, w.layout.totalColumn) (w.totalFormula row) := by
  have hentry := h.results row hrow
  refine ⟨by rw [hentry], amount (w.total row), by rw [hentry], ?_⟩
  rw [← value_total hplain hrow (h.readable row hrow)]
  apply Formula.value_congr
  intro place hplace
  obtain ⟨rfl, hcolumn⟩ := reads_totalFormula hplace
  exact congrArg Entry.content (h.kept_input hrow hcolumn)

theorem mapM_some {α : Type} {g : α → Option ℚ} {f : α → ℚ} {as : List α} (h : ∀ a ∈ as, g a = some (f a)) :
    as.mapM g = some (as.map f) := by
  induction as with
  | nil => rfl
  | cons a as ih =>
    rw [List.mapM_cons, h a List.mem_cons_self, ih fun b hb => h b (List.mem_cons_of_mem _ hb), List.map_cons]
    rfl

/-- The number of players above a threshold. -/
theorem Settled.writeAbove {cells : List (Place × Formula)} {offset threshold : Nat} {f : Nat → ℚ}
    (h : Settled v w cells) (hplain : v.Plain) (hplayers : 2 ≤ v.lastPlayer)
    (htotals : ∀ row ∈ v.playerRows, v.content (row, 2) = .number (f row))
    (hoffset : offset < v.layout.footerTitles.length) (hnew : (v.summary + offset, 2) ∉ cells.map Prod.fst)
    (hwrite : w.writeAbove (v.playerRows.map f) offset threshold = .ok w') :
    Settled v w' (((v.summary + offset, 2), .countAbove (v.playerCells 2) (v.playerCells 3) threshold) :: cells) := by
  obtain ⟨carried, hcarried, hwritten⟩ := exists_of_bind hwrite
  obtain rfl := Except.ok.inj hwritten
  rw [h.beneath.summary, h.beneath.playerCells, h.beneath.playerCells]
  refine h.setResult (inFooter_offset hoffset) (Nat.le_refl 2) hnew (fun read hread => ?_) ?_
  · rcases List.mem_append.mp hread with hin | hin
    · exact reads_playerCells hplayers hin
    · exact reads_playerCells hplayers hin
  · have hshown : w.playerRows.mapM (fun row => (w.content (row, 2)).number?) = some (v.playerRows.map f) := by
      rw [h.beneath.playerRows]
      refine mapM_some fun row hrow => ?_
      rw [h.beneath.content (mem_playerRows.mp hrow).2, htotals row hrow]
      rfl
    rw [← h.beneath.playerCells 2, ← h.beneath.playerCells 3]
    exact value_countAbove (h.beneath.lastPlayer ▸ hplayers) hshown (hplain.beneath h.beneath).carried hcarried

/-- The difference of the two counts of the first row of the footer, which is written last. -/
theorem Settled.writeDifference {cells : List (Place × Formula)} {first second : Formula} (h : Settled v w cells)
    (hfirst : ((v.summary, 2), first) ∈ cells) (hsecond : ((v.summary, 3), second) ∈ cells)
    (hnew : (v.summary + 2, 2) ∉ cells.map Prod.fst) (hwrite : w.writeDifference = .ok w') :
    ∀ cell ∈ ((v.summary + 2, 2), Formula.sub (.ref (v.summary, 2)) (.ref (v.summary, 3))) :: cells,
      w'.sheet.Caches cell.1 cell.2 := by
  obtain ⟨total, htotal, hrest⟩ := exists_of_bind hwrite
  obtain ⟨carried, hcarried, hwritten⟩ := exists_of_bind hrest
  obtain rfl := Except.ok.inj hwritten
  rw [h.beneath.summary] at htotal hcarried ⊢
  obtain ⟨-, a, ha, -⟩ := h.caches _ hfirst
  obtain ⟨-, b, hb, -⟩ := h.caches _ hsecond
  rw [number_of_number ha] at htotal
  rw [number_of_number hb] at hcarried
  obtain rfl := Except.ok.inj htotal
  obtain rfl := Except.ok.inj hcarried
  intro cell hcell
  rcases List.mem_cons.mp hcell with rfl | hold
  · refine Grid.caches_put ?_ ?_
    · simp [Formula.reads]
    · rw [Formula.value, Formula.value, Formula.value, ha, hb]
      rfl
  · refine (h.caches cell hold).put ?_ ?_
    · intro hsame
      exact hnew (hsame ▸ List.mem_map_of_mem hold)
    · intro hread
      have := h.reads cell hold _ hread
      have hbelow : v.lastPlayer < v.summary + 2 := by
        unfold summary
        omega
      omega

/-- The totals and the titles leave plain numbers. -/
theorem Totalled.plain (h : Totalled w v) (hplain : w.Plain) : v.Plain := by
  have hbook : v.book = w.book := (congrArg StatisticsWorkbook.book h.same).trans rfl
  have hrows : v.playerRows = w.playerRows := (congrArg StatisticsWorkbook.playerRows h.same).trans rfl
  have hgames : v.gameColumns = w.gameColumns := (congrArg StatisticsWorkbook.gameColumns h.same).trans rfl
  have hcontent (row column : Nat) (hcolumn : column = 3 ∨ column ∈ w.gameColumns) :
      v.content (row, column) = w.content (row, column) := by
    unfold content
    rw [h.kept]
    rintro ⟨-, hin⟩
    simp only [List.mem_cons, List.not_mem_nil, or_false] at hin
    rcases hcolumn with rfl | hgame
    · rcases totalColumn_mem w with htotal | htotal <;> omega
    · have := four_lt_gameColumns hgame
      rcases totalColumn_mem w with htotal | htotal <;> omega
  refine ⟨?_, ?_, ?_⟩
  · intro row hrow
    rw [hcontent row 3 (.inl rfl)]
    exact hplain.carried row (hrows ▸ hrow)
  · intro row hrow column hcolumn
    rw [hgames] at hcolumn
    rw [hcontent row column (.inr hcolumn)]
    exact hplain.marks row (hrows ▸ hrow) column hcolumn
  · intro hmasters row hrow
    rw [hrows] at hrow
    rw [hcontent row 3 (.inl rfl)]
    obtain ⟨hcarried, hmarks⟩ := hplain.counted (hbook.symm.trans hmasters) row hrow
    refine ⟨hcarried, fun column hcolumn q hq => ?_⟩
    rw [hgames] at hcolumn
    rw [hcontent row column (.inr hcolumn)] at hq
    exact hmarks column hcolumn q hq

theorem beneath_titles : Beneath 1 w w.prepareFooter.writeTitles :=
  beneath_prepareFooter.trans beneath_writeTitles

/-- What stays of a workbook under the totals and the titles. -/
theorem Totalled.titles (h : Totalled w v) : v.prepareFooter.writeTitles.playerRows = w.playerRows ∧
    v.prepareFooter.writeTitles.gameColumns = w.gameColumns ∧ v.prepareFooter.writeTitles.summary = w.summary ∧
    v.prepareFooter.writeTitles.lastPlayer = w.lastPlayer ∧ v.prepareFooter.writeTitles.layout = w.layout ∧
    ∀ column, v.prepareFooter.writeTitles.playerCells column = w.playerCells column := by
  have hv := h.same
  refine ⟨?_, ?_, ?_, ?_, ?_, fun column => ?_⟩
  · exact (beneath_titles (w := v)).playerRows.trans ((congrArg StatisticsWorkbook.playerRows hv).trans rfl)
  · exact (beneath_titles (w := v)).gameColumns.trans ((congrArg StatisticsWorkbook.gameColumns hv).trans rfl)
  · exact (beneath_titles (w := v)).summary.trans ((congrArg StatisticsWorkbook.summary hv).trans rfl)
  · exact (beneath_titles (w := v)).lastPlayer.trans ((congrArg StatisticsWorkbook.lastPlayer hv).trans rfl)
  · exact (beneath_titles (w := v)).layout.trans ((congrArg StatisticsWorkbook.layout hv).trans rfl)
  · exact ((beneath_titles (w := v)).playerCells column).trans
      ((congrArg (fun w => StatisticsWorkbook.playerCells w column) hv).trans rfl)

theorem notMem_row {columns : List Nat} {row other column : Nat} {formula : Nat → Formula} (h : other ≠ row) :
    (other, column) ∉ (columns.map fun column => (((row, column) : Place), formula column)).map Prod.fst := by
  rw [List.map_map]
  intro hin
  obtain ⟨_, _, hsame⟩ := List.mem_map.mp hin
  exact h (Prod.mk.inj hsame).1.symm

/-- The counts of the players with a total and with one from before the season. -/
theorem settled_writePositive (hplain : v.Plain) (hplayers : 2 ≤ v.lastPlayer)
    (hshown : ∀ row ∈ v.playerRows, IsPlain (v.content (row, 2))) (h : v.writePositive = .ok w') :
    Settled v w' [((v.summary, 2), .countIf (v.playerCells 2) .above 0),
      ((v.summary, 3), .countIf (v.playerCells 3) .above 0)] := by
  refine Settled.refl.setResults inFooter_summary (fun column hcolumn => ?_) (by decide)
    (fun _ _ => List.not_mem_nil) (fun column _ read hread => ?_) (fun k hk column hcolumn q hq => ?_) h
  · simp only [List.mem_cons, List.not_mem_nil, or_false] at hcolumn
    omega
  · have hread : read ∈ (v.playerCells column).places := hread
    exact reads_playerCells hplayers hread
  · obtain ⟨numbers, hnumbers, hcount⟩ := exists_of_bind hq
    obtain rfl := Except.ok.inj hcount
    rw [← hk.playerCells]
    refine value_positive (hk.lastPlayer ▸ hplayers) (fun row hrow => ?_) hnumbers
    rw [hk.playerRows] at hrow
    rw [hk.content (mem_playerRows.mp hrow).2]
    simp only [List.mem_cons, List.not_mem_nil, or_false] at hcolumn
    rcases hcolumn with rfl | rfl
    · exact hshown row hrow
    · exact hplain.carried row hrow

/-- The totals as the titled sheet shows them. -/
theorem Totalled.shown (h : Totalled w v) {row : Nat} (hrow : row ∈ w.playerRows) :
    v.prepareFooter.writeTitles.content (row, w.layout.totalColumn) = .number (amount (w.total row)) := by
  have hlast : v.lastPlayer = w.lastPlayer := (congrArg StatisticsWorkbook.lastPlayer h.same).trans rfl
  rw [beneath_titles.content (hlast ▸ (mem_playerRows.mp hrow).2), content, h.results row hrow]

theorem notMem_firstRow {row : Nat} {formula : Nat → Formula} {cells : List (Place × Formula)}
    (hrow : row ≠ w.summary)
    (hcells : (row, 2) ∉ cells.map Prod.fst) :
    (row, 2) ∉ ((w.gameColumns.map fun column => (((w.summary, column) : Place), formula column)) ++ cells).map
      Prod.fst := by
  rw [List.map_append, List.mem_append, not_or]
  exact ⟨notMem_row hrow, hcells⟩

theorem caches_refreshAttendance (hbook : w.book = .attendance) (hplain : w.Plain) (hplayers : 2 ≤ w.lastPlayer)
    (h : w.refreshAttendance = .ok w') : ∀ cell ∈ w.resultFormulas, w'.sheet.Caches cell.1 cell.2 := by
  have hrefreshed : Refreshed w w' := refreshed_refresh (by rw [refresh, hbook]; exact h)
  obtain ⟨totals, htotals, h⟩ := exists_of_bind h
  have htotalled := totalled_writeTotals htotals
  obtain ⟨-, rfl⟩ := amounts_of_mapM htotals
  obtain ⟨w₁, hpositive, h⟩ := exists_of_bind h
  obtain ⟨w₂, hattendance, h⟩ := exists_of_bind h
  obtain ⟨w₃, hnew, h⟩ := exists_of_bind h
  obtain ⟨w₄, hactive, hdifference⟩ := exists_of_bind h
  obtain ⟨hrows, hgames, hsummary, hlast, hlayout, hcells⟩ := htotalled.titles
  have hv := (htotalled.plain hplain).beneath beneath_titles
  have htwo : w.layout.totalColumn = 2 := by
    rw [layout, hbook]
    rfl
  have hshown (row : Nat) (hrow : row ∈ w.playerRows) := htwo ▸ htotalled.shown hrow
  generalize (w.writeTotals (w.playerRows.map fun row => amount (w.total row))).prepareFooter.writeTitles = v
    at hpositive hrows hgames hsummary hlast hlayout hcells hv hshown
  have hplayersv : 2 ≤ v.lastPlayer := hlast ▸ hplayers
  have hfour : v.layout.footerTitles.length = 4 := by
    rw [hlayout, layout, hbook]
    rfl
  rw [← hrows] at hshown hnew hactive
  -- the cells of the footer, one stage after the other
  have h₁ := settled_writePositive hv hplayersv (fun row hrow => .inr ⟨_, hshown row hrow⟩) hpositive
  have h₂ := h₁.writeAttendance hv hplayersv (fun column hcolumn => ?_) hattendance
  have hone : 1 < v.layout.footerTitles.length := by omega
  have h₃ := h₂.writeAbove hv hplayersv hshown hone (notMem_firstRow (by omega) (by simp)) hnew
  have hthree : 3 < v.layout.footerTitles.length := by omega
  have h₄ := h₃.writeAbove hv hplayersv hshown hthree (by
    rw [List.map_cons, List.mem_cons, not_or]
    exact ⟨by simp, notMem_firstRow (by omega) (by simp)⟩) hactive
  have hfirst : ((v.summary, 2), Formula.countIf (v.playerCells 2) .above 0) ∈
      [((v.summary, 2), Formula.countIf (v.playerCells 2) .above 0),
        ((v.summary, 3), Formula.countIf (v.playerCells 3) .above 0)] := by simp
  have hsecond : ((v.summary, 3), Formula.countIf (v.playerCells 3) .above 0) ∈
      [((v.summary, 2), Formula.countIf (v.playerCells 2) .above 0),
        ((v.summary, 3), Formula.countIf (v.playerCells 3) .above 0)] := by simp
  have hall := h₄.writeDifference
    (List.mem_cons_of_mem _ (List.mem_cons_of_mem _ (List.mem_append_right _ hfirst)))
    (List.mem_cons_of_mem _ (List.mem_cons_of_mem _ (List.mem_append_right _ hsecond))) (by
      rw [List.map_cons, List.map_cons, List.mem_cons, List.mem_cons, not_or, not_or]
      exact ⟨by simp, by simp, notMem_firstRow (by omega) (by simp)⟩) hdifference
  · intro cell hcell
    unfold resultFormulas at hcell
    rw [hbook, ← hgames, ← hsummary] at hcell
    simp only [← hcells] at hcell
    rcases List.mem_append.mp hcell with hcell | hcell
    · rcases List.mem_append.mp hcell with hcell | hcell
      · obtain ⟨row, hrow, rfl⟩ := List.mem_map.mp hcell
        exact hrefreshed.caches_total hplain hrow
      · apply hall
        exact List.mem_cons_of_mem _ (List.mem_cons_of_mem _ (List.mem_cons_of_mem _ (List.mem_append_left _ hcell)))
    · apply hall
      simp only [List.mem_cons, List.not_mem_nil, or_false, List.mem_append] at hcell ⊢
      tauto
  · have := four_lt_gameColumns hcolumn
    simp only [List.map_cons, List.map_nil, List.mem_cons, List.not_mem_nil, or_false, Prod.mk.injEq, true_and]
    omega

/-- What a total is made of. -/
theorem total_parts {row : Nat} {total : ℚ} (h : w.total row = .ok total) : ∃ carried games,
    w.number (row, 3) = .ok carried ∧ w.gameColumns.mapM (fun column => w.number (row, column) true) = .ok games ∧
      total = carried + games.sum := by
  obtain ⟨carried, hcarried, hrest⟩ := exists_of_bind h
  obtain ⟨games, hgames, hsum⟩ := exists_of_bind hrest
  have hthird : w.layout.carriedColumn = 3 := by
    unfold layout
    cases w.book <;> rfl
  rw [hthird] at hcarried
  exact ⟨carried, games, hcarried, hgames, (Except.ok.inj hsum).symm⟩

theorem nonneg_of_mark {place : Place} {q : ℚ} (h : IsMark (w.content place))
    (hcounted : ∀ q, w.content place = .number q → 0 ≤ q) (hq : w.number place true = .ok q) : 0 ≤ q := by
  rcases h with (hblank | ⟨r, hr⟩) | ⟨text, htext⟩
  · rw [number_of_blank hblank hq]
  · rw [number_of_number hr] at hq
    rw [← Except.ok.inj hq]
    exact hcounted r hr
  · rw [number_of_text htext] at hq
    rw [← Except.ok.inj hq]

theorem all_of_mapM {α : Type} {f : α → Except Failure ℚ} {p : ℚ → Prop} {as : List α} {qs : List ℚ}
    (hp : ∀ a ∈ as, ∀ q, f a = .ok q → p q) (h : as.mapM f = .ok qs) : ∀ q ∈ qs, p q := by
  obtain ⟨hall, rfl⟩ := amounts_of_mapM h
  intro q hq
  obtain ⟨a, ha, rfl⟩ := List.mem_map.mp hq
  exact hp a ha _ (hall a ha)

/-- The games of a master in the season. -/
def seasonTotal (w : StatisticsWorkbook) (row : Nat) : ℚ :=
  amount (w.total row) - amount (w.number (row, 3))

theorem seasonTotal_nonneg (hplain : w.Plain) (hbook : w.book = .masters) {row : Nat} (hrow : row ∈ w.playerRows)
    (h : w.total row = .ok (amount (w.total row))) : 0 ≤ w.seasonTotal row := by
  obtain ⟨carried, games, hcarried, hgames, htotal⟩ := total_parts h
  have hcounted := (hplain.counted hbook row hrow).2
  have hnonneg := all_of_mapM (fun column hcolumn q hq =>
    nonneg_of_mark (hplain.marks row hrow column hcolumn) (hcounted column hcolumn) hq) hgames
  have hseason : w.seasonTotal row = games.sum := by
    unfold seasonTotal
    rw [htotal, hcarried]
    exact add_sub_cancel_left carried games.sum
  rw [hseason]
  exact List.sum_nonneg hnonneg

/-- The cell of a master's games in the season. -/
theorem shown_writeSeasonTotals {totals seasonTotals : List ℚ} (h : w.playerRows.mapM w.total = .ok totals)
    (hwrite : w.writeSeasonTotals (w.playerRows.zip totals) = .ok (v, seasonTotals)) {row : Nat}
    (hrow : row ∈ w.playerRows) : v.prepareFooter.writeTitles.sheet.entry (row, 2) =
      ⟨.number (w.seasonTotal row), some (Formula.sub (.ref (row, 4)) (.ref (row, 3))).text⟩ := by
  obtain ⟨rfl, -⟩ := writeSeasonTotals_all h hwrite
  rw [beneath_titles.kept _ fun hin => absurd hin.1.1 (Nat.not_lt.mpr (mem_playerRows.mp hrow).2)]
  apply Grid.entry_write_of_mem nodup_masterPlaces
  exact List.mem_flatMap.mpr ⟨row, hrow, List.mem_cons_self⟩

theorem length_of_mapM {α : Type} {f : α → Except Failure ℚ} {as : List α} {qs : List ℚ} (h : as.mapM f = .ok qs) :
    qs.length = as.length := by
  obtain ⟨-, rfl⟩ := amounts_of_mapM h
  exact List.length_map _

theorem Settled.writeNewMasters {cells : List (Place × Formula)} (h : Settled v w cells) (hplain : v.Plain)
    (hplayers : 2 ≤ v.lastPlayer) (hbook : v.book = .masters) (hnew : (v.summary + 2, 2) ∉ cells.map Prod.fst)
    (hwrite : w.writeNewMasters = .ok w') :
    Settled v w' (((v.summary + 2, 2), .countIf (v.playerCells 3) .equal 0) :: cells) := by
  obtain ⟨carried, hcarried, hwritten⟩ := exists_of_bind hwrite
  obtain rfl := Except.ok.inj hwritten
  rw [h.beneath.summary, h.beneath.playerCells]
  have htwo : 2 < v.layout.footerTitles.length := by
    rw [layout, hbook]
    decide
  refine h.setResult (inFooter_offset htwo) (Nat.le_refl 2) hnew (fun read hread => ?_) ?_
  · have hread : read ∈ (v.playerCells 3).places := hread
    exact reads_playerCells hplayers hread
  · have hw := hplain.beneath h.beneath
    have hwbook : w.book = .masters := ((congrArg StatisticsWorkbook.book h.beneath.same).trans rfl).trans hbook
    have hcriterion : Criterion.equal.holds ((0 : Nat) : ℚ) = fun q => decide (q = 0) := by
      funext q
      simp [Criterion.holds]
    rw [← h.beneath.playerCells, ← hcriterion]
    refine value_countIf (h.beneath.lastPlayer ▸ hplayers) hw.carried (.inr fun row hrow => ?_) hcarried
    obtain ⟨q, hq⟩ := (hw.counted hwbook row hrow).1
    rw [hq]
    exact fun h => by cases h

theorem caches_refreshMasters (hbook : w.book = .masters) (hplain : w.Plain) (hplayers : 2 ≤ w.lastPlayer)
    (h : w.refreshMasters = .ok w') : ∀ cell ∈ w.resultFormulas, w'.sheet.Caches cell.1 cell.2 := by
  have hrefreshed : Refreshed w w' := refreshed_refresh (by rw [refresh, hbook]; exact h)
  obtain ⟨totals, htotals, h⟩ := exists_of_bind h
  obtain ⟨⟨v₀, seasonTotals⟩, hseason, h⟩ := exists_of_bind h
  have htotalled := totalled_writeSeasonTotals hbook htotals hseason
  obtain ⟨w₂, hattendance, h⟩ := exists_of_bind h
  obtain ⟨hrows, hgames, hsummary, hlast, hlayout, hcells⟩ := htotalled.titles
  have hv := (htotalled.plain hplain).beneath beneath_titles
  have hvbook : v₀.prepareFooter.writeTitles.book = .masters :=
    ((congrArg StatisticsWorkbook.book (beneath_titles (w := v₀)).same).trans
      ((congrArg StatisticsWorkbook.book htotalled.same).trans rfl)).trans hbook
  have hseasonCell (row : Nat) (hrow : row ∈ w.playerRows) := shown_writeSeasonTotals htotals hseason hrow
  obtain ⟨-, hseasonTotals⟩ := writeSeasonTotals_all htotals hseason
  have hlength := length_of_mapM htotals
  have hreadable := (amounts_of_mapM htotals).1
  generalize v₀.prepareFooter.writeTitles = v
    at hattendance hrows hgames hsummary hlast hlayout hcells hv hvbook hseasonCell
  have hplayersv : 2 ≤ v.lastPlayer := hlast ▸ hplayers
  have hthree : v.layout.footerTitles.length = 3 := by
    rw [hlayout, layout, hbook]
    rfl
  have hshown : ∀ row ∈ v.playerRows, v.content (row, 2) = .number (w.seasonTotal row) := by
    intro row hrow
    rw [content, hseasonCell row (hrows ▸ hrow)]
  have hseasons : seasonTotals = v.playerRows.map w.seasonTotal := by
    rw [hseasonTotals, hrows]
    rfl
  -- every master has a number of games in the season, and none has a negative one
  have hpresent : (Formula.countIf (v.playerCells 2) .atLeast 0).value v.sheet =
      some ((totals.length : Nat) : ℚ) := by
    rw [value_countIf_numbers hplayersv hshown]
    have hall : (v.playerRows.map w.seasonTotal).countP (Criterion.atLeast.holds ((0 : Nat) : ℚ)) =
        totals.length := by
      rw [hlength, ← hrows, List.countP_map, List.countP_eq_length]
      intro row hrow
      have hnonneg := seasonTotal_nonneg hplain hbook (hrows ▸ hrow) (hreadable row (hrows ▸ hrow))
      simpa [Criterion.holds] using hnonneg
    rw [hall]
  have h₁ : Settled v (v.setResult (v.summary, 2) totals.length (.countIf (v.playerCells 2) .atLeast 0))
      [((v.summary, 2), .countIf (v.playerCells 2) .atLeast 0)] :=
    Settled.refl.setResult inFooter_summary (Nat.le_refl 2) List.not_mem_nil
      (fun _ hread => reads_playerCells hplayersv hread) hpresent
  have h₂ := h₁.writeAttendance hv hplayersv (fun column hcolumn => ?_) hattendance
  have hone : 1 < v.layout.footerTitles.length := by omega
  have hcriterion : Criterion.above.holds ((0 : Nat) : ℚ) = fun q => decide (0 < q) := by
    funext q
    simp [Criterion.holds]
  have hplaying : (Formula.countIf (w₂.playerCells 2) .above 0).value w₂.sheet =
      some ((seasonTotals.countP (0 < ·) : Nat) : ℚ) := by
    rw [hseasons, ← hcriterion, ← h₂.beneath.playerRows]
    refine value_countIf_numbers (h₂.beneath.lastPlayer ▸ hplayersv) fun row hrow => ?_
    rw [h₂.beneath.playerRows] at hrow
    rw [h₂.beneath.content (mem_playerRows.mp hrow).2, hshown row hrow]
  have hplayingReads : ∀ read ∈ (Formula.countIf (w₂.playerCells 2) .above 0).reads, read.1 ≤ v.lastPlayer := by
    intro read hread
    rw [h₂.beneath.playerCells] at hread
    exact reads_playerCells hplayersv hread
  have h₃ := h₂.setResult (inFooter_offset hone) (Nat.le_refl 2) (notMem_firstRow (by omega) (by simp))
    hplayingReads hplaying
  dsimp only at h
  rw [h₂.beneath.summary] at h
  have h₄ := h₃.writeNewMasters hv hplayersv hvbook (by
    rw [List.map_cons, List.mem_cons, not_or]
    exact ⟨by simp, notMem_firstRow (by omega) (by simp)⟩) h
  · intro cell hcell
    unfold resultFormulas at hcell
    rw [hbook, ← hgames, ← hsummary] at hcell
    simp only [← hcells] at hcell
    rcases List.mem_append.mp hcell with hcell | hcell
    · rcases List.mem_append.mp hcell with hcell | hcell
      · obtain ⟨row, hrow, rfl⟩ := List.mem_map.mp hcell
        exact hrefreshed.caches_total hplain hrow
      · apply h₄.caches
        exact List.mem_cons_of_mem _ (List.mem_cons_of_mem _ (List.mem_append_left _ hcell))
    · rcases List.mem_append.mp hcell with hcell | hcell
      · obtain ⟨row, hrow, rfl⟩ := List.mem_map.mp hcell
        obtain ⟨carried, games, hcarried, -, -⟩ := total_parts (hreadable row hrow)
        have hfour : w.layout.totalColumn = 4 := by
          rw [layout, hbook]
          rfl
        have htotalCell := hrefreshed.results row hrow
        rw [hfour] at htotalCell
        have hcell : w'.sheet.entry (row, 2) = ⟨.number (w.seasonTotal row),
            some (Formula.sub (.ref (row, 4)) (.ref (row, 3))).text⟩ := by
          rw [h₄.beneath.kept, hseasonCell row hrow]
          intro hin
          have := (mem_playerRows.mp hrow).2
          have := hin.1.1
          omega
        refine ⟨by rw [hcell], w.seasonTotal row, by rw [hcell], ?_⟩
        have hoperand := operand_of_plain (hplain.carried row hrow) hcarried
        have hkept := hrefreshed.kept_input hrow (.inl rfl)
        rw [Formula.value, Formula.value, Formula.value, htotalCell, hkept]
        show (do
          let total ← some (amount (w.total row))
          let carried ← (w.content (row, 3)).operand
          pure (total - carried)) = _
        rw [hoperand, seasonTotal, hcarried]
        rfl
      · apply h₄.caches
        rw [h₂.beneath.playerCells]
        simp only [List.mem_cons, List.not_mem_nil, or_false, List.mem_append] at hcell ⊢
        tauto
  · have := four_lt_gameColumns hcolumn
    simp only [List.map_cons, List.map_nil, List.mem_cons, List.not_mem_nil, or_false, Prod.mk.injEq, true_and]
    omega

/-- Each number that `refresh` writes beside a formula is what the formula comes to. -/
theorem caches_refresh (hplain : w.Plain) (hplayers : 2 ≤ w.lastPlayer) (h : w.refresh = .ok w') :
    ∀ cell ∈ w.resultFormulas, w'.sheet.Caches cell.1 cell.2 := by
  unfold refresh at h
  cases hbook : w.book with
  | attendance =>
    rw [hbook] at h
    exact caches_refreshAttendance hbook hplain hplayers h
  | masters =>
    rw [hbook] at h
    exact caches_refreshMasters hbook hplain hplayers h

end Written

end StatisticsWorkbook

end LarpBot
