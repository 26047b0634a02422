import LarpBot.Laws.WorkbookMarks

/-!
# A game in a statistics workbook

`mark_game` on a workbook whose sheet is tidy: who is credited, what the totals are afterwards and what
stays. A refreshed sheet is tidy again, and `load` finds on it what is in memory.
-/

namespace LarpBot

open Worksheets Atomic

namespace StatisticsWorkbook

variable {bot : Deployment} {floatText : ℚ → String} {w w' m o : StatisticsWorkbook}

/-! ## Tidy sheets -/

section Tidy

/-- The headers, the players and the end of the columns are where the workbook has them, and nothing
stands right of the last header. -/
structure Ready (w : StatisticsWorkbook) : Prop where
  positive : ∀ row ∈ w.sheet.rows, 1 ≤ row
  first : 1 ≤ w.lastPlayer
  players : ∀ row ∈ w.playerRows, w.book.isPlayerRow w.sheet row = true
  headers : w.book.hasHeaders w.sheet = true
  column : lastHeader w.sheet = w.lastColumn
  clear : ∀ row ∈ w.playerRows, ∀ column, w.lastColumn < column → w.sheet.entry (row, column) = {}

/-- The rows of the players are all there, too. -/
structure Tidy (w : StatisticsWorkbook) : Prop extends Ready w where
  present : ∀ row ∈ w.playerRows, row ∈ w.sheet.rows

/-- What `load` finds. -/
structure Readable (w : StatisticsWorkbook) : Prop where
  lastPlayer : lastPlayerRow w.book w.sheet = w.lastPlayer
  footer : footerAdmitted w.book w.sheet w.lastPlayer = true

theorem hasHeaders_iff {book : StatisticsBook} {sheet : Grid ℚ} : book.hasHeaders sheet = true ↔
    ∀ header ∈ book.layout.requiredHeaders, cellValue sheet (1, header.1) = some (.text header.2) := by
  unfold StatisticsBook.hasHeaders
  rw [List.all_eq_true]
  exact forall₂_congr fun _ _ => decide_eq_true_iff

theorem mem_requiredHeaders (book : StatisticsBook) :
    ∃ title, (book.layout.fixedColumn, title) ∈ book.layout.requiredHeaders ∧ title ≠ "" := by
  cases book
  · exact ⟨"50 игр", by decide, by decide⟩
  · exact ⟨"35 игр", by decide, by decide⟩

theorem requiredHeaders_le (book : StatisticsBook) :
    ∀ header ∈ book.layout.requiredHeaders, header.1 ≤ book.layout.fixedColumn := by
  cases book <;> decide

/-- The fixed columns have headers. -/
theorem Ready.fixed (h : Ready w) : w.layout.fixedColumn ≤ w.lastColumn := by
  obtain ⟨title, hmem, hne⟩ := mem_requiredHeaders w.book
  have hvalue := hasHeaders_iff.mp h.headers _ hmem
  rw [← h.column]
  apply le_lastHeader
  exact hvalue ▸ isFilled_text hne

theorem gameColumn_eq (w : StatisticsWorkbook) : w.layout.gameColumn = w.layout.fixedColumn + 1 := by
  unfold layout
  cases w.book <;> rfl

theorem four_lt_fixedColumn (w : StatisticsWorkbook) : 4 < w.layout.fixedColumn := by
  unfold layout
  cases w.book <;> decide

theorem cellValue_congr {sheet sheet' : Grid ℚ} {place : Place} (h : sheet'.entry place = sheet.entry place) :
    cellValue sheet' place = cellValue sheet place := by
  rw [cellValue, cellValue, h]

theorem isPlayerRow_congr {book : StatisticsBook} {sheet sheet' : Grid ℚ} {row : Nat}
    (h : sheet'.entry (row, 1) = sheet.entry (row, 1)) :
    book.isPlayerRow sheet' row = book.isPlayerRow sheet row := by
  unfold StatisticsBook.isPlayerRow
  rw [cellValue_congr h, h]

/-- A result is in none of the first, the headers' and the games' cells. -/
theorem Refreshed.kept_of (h : Refreshed w w') {row column : Nat} (hrow : row ≤ w.lastPlayer)
    (hcolumn : row < 2 ∨ column ≠ 2 ∧ column ≠ w.layout.totalColumn) :
    w'.sheet.entry (row, column) = w.sheet.entry (row, column) := by
  apply h.kept
  · rintro ⟨hplayer, hin⟩
    simp only [List.mem_cons, List.not_mem_nil, or_false] at hin
    rcases hcolumn with hlow | ⟨htwo, htotal⟩
    · have := (mem_playerRows.mp hplayer).1
      omega
    · rcases hin with hin | hin
      · exact htwo hin
      · exact htotal hin
  · intro hfoot
    exact absurd hfoot.1 (Nat.not_lt.mpr hrow)

theorem totalColumn_lt (w : StatisticsWorkbook) : 1 < w.layout.totalColumn ∧
    w.layout.totalColumn < w.layout.fixedColumn := by
  unfold layout
  cases w.book <;> decide

/-- A refreshed sheet is tidy, if it was ready and had nothing below the players. -/
theorem Refreshed.tidy (h : Refreshed w w') (hready : Ready w) : Tidy w' := by
  have hbook : w'.book = w.book := (congrArg StatisticsWorkbook.book h.same).trans rfl
  have hlast : w'.lastPlayer = w.lastPlayer := (congrArg StatisticsWorkbook.lastPlayer h.same).trans rfl
  have hrows : w'.playerRows = w.playerRows := (congrArg StatisticsWorkbook.playerRows h.same).trans rfl
  have hcolumn : w'.lastColumn = w.lastColumn := (congrArg StatisticsWorkbook.lastColumn h.same).trans rfl
  have hheader (column : Nat) : w'.sheet.entry (1, column) = w.sheet.entry (1, column) :=
    h.kept_of hready.first (.inl (by decide))
  have hfixed := hready.fixed
  have htotal := totalColumn_lt w
  have hgame := four_lt_fixedColumn w
  refine ⟨⟨fun row hrow => ?_, ?_, fun row hrow => ?_, ?_, ?_, fun row hrow column hbeyond => ?_⟩, fun row hrow => ?_⟩
  · rcases (h.rows row).mp hrow with hold | hplayer | hfoot
    · exact hready.positive row hold
    · have := (mem_playerRows.mp hplayer).1
      omega
    · have := hfoot.1
      omega
  · rw [hlast]
    exact hready.first
  · rw [hrows] at hrow
    rw [hbook, isPlayerRow_congr (h.kept_of (mem_playerRows.mp hrow).2 (.inr ⟨by decide, by omega⟩))]
    exact hready.players row hrow
  · rw [hbook, hasHeaders_iff]
    intro header hmem
    rw [cellValue_congr (hheader _)]
    exact hasHeaders_iff.mp hready.headers header hmem
  · rw [hcolumn, ← hready.column]
    exact lastHeader_congr hheader
  · rw [hrows] at hrow
    rw [hcolumn] at hbeyond
    rw [h.kept_of (mem_playerRows.mp hrow).2 (.inr ⟨by omega, by omega⟩)]
    exact hready.clear row hrow column hbeyond
  · rw [hrows] at hrow
    exact (h.rows row).mpr (.inr (.inl hrow))

theorem footerTitle_first (book : StatisticsBook) : book.layout.footerTitles[0]? = some "Всего" := by
  cases book <;> rfl

/-- What `load` finds on a refreshed sheet. -/
theorem Refreshed.reads_back (h : Refreshed w w') (hready : Ready w)
    (hwithin : ∀ row ∈ w.sheet.rows, row ≤ w.lastPlayer) :
    Readable w' := by
  have hbook : w'.book = w.book := (congrArg StatisticsWorkbook.book h.same).trans rfl
  have hlast : w'.lastPlayer = w.lastPlayer := (congrArg StatisticsWorkbook.lastPlayer h.same).trans rfl
  have hsummary : w'.summary = w'.lastPlayer + 1 := rfl
  have htidy := h.tidy hready
  constructor
  · obtain ⟨hentry, hrow⟩ := h.titled 0 _ (footerTitle_first w'.book)
    rw [Nat.add_zero, hsummary] at hentry hrow
    refine lastPlayerRow_eq htidy.positive ?_ (fun row _ hlow hhigh => ?_) hrow ?_
    · have hfirst := htidy.first
      rcases Nat.eq_or_lt_of_le hfirst with hone | hgt
      · exact .inl hone.symm
      · exact .inr ⟨htidy.present _ (mem_playerRows.mpr ⟨hgt, Nat.le_refl _⟩), hgt⟩
    · exact htidy.players row (mem_playerRows.mpr ⟨hlow, hhigh⟩)
    · rw [Bool.eq_false_iff]
      intro hplayer
      obtain ⟨⟨name, hname, hout⟩, -⟩ := isPlayerRow_iff.mp hplayer
      rw [cellValue, hentry] at hname
      obtain rfl := CellValue.text.inj (Option.some.inj hname)
      exact hout (List.mem_of_getElem? (footerTitle_first w'.book))
  · unfold footerAdmitted
    rw [List.all_eq_true]
    intro row hrow
    by_cases hle : row ≤ w'.lastPlayer
    · simp only [hle, decide_true, Bool.true_or]
    · have hfoot : w.InFooter row := by
        rcases (h.rows row).mp hrow with hold | hplayer | hfoot
        · exact absurd (hlast ▸ hwithin row hold) hle
        · exact absurd (hlast ▸ (mem_playerRows.mp hplayer).2) hle
        · exact hfoot
      have hlayout : w'.layout = w.layout := (congrArg StatisticsWorkbook.layout h.same).trans rfl
      have hoffset : row - w'.summary < w'.layout.footerTitles.length := by
        have := hfoot.2
        rw [hlayout, hsummary]
        omega
      obtain ⟨hentry, -⟩ := h.titled _ _ (List.getElem?_eq_getElem hoffset)
      have hplace : w'.summary + (row - w'.summary) = row := by
        rw [hsummary]
        omega
      rw [hplace] at hentry
      have hvalue : cellValue w'.sheet (row, 1) = some (.text w'.layout.footerTitles[row - w'.summary]) := by
        rw [cellValue, hentry]
        rfl
      have hnamed : w'.layout.footerTitles[row - w'.summary] ∈ w'.book.layout.footerTitles := List.getElem_mem hoffset
      have hin : row ≤ w'.lastPlayer + w'.book.layout.footerTitles.length := by
        have : w'.book.layout.footerTitles.length = w'.layout.footerTitles.length := rfl
        omega
      simp only [hvalue, hnamed, hin, decide_true, Bool.true_or, Bool.and_true, Bool.or_true]

end Tidy

/-! ## The marked sheet -/

section Marked

variable {name : String} {players : List String} {lookup : List (String × Nat)}

theorem entry_openGame {place : Place} (hrow : place.1 ≤ w.lastPlayer) :
    (w.openGame name).sheet.entry place =
      if place = (1, w.lastColumn + 1) then { content := .text name } else w.sheet.entry place := by
  show ((w.sheet.put (1, w.lastColumn + 1) _).upTo w.lastPlayer).entry place = _
  rw [Grid.entry_upTo, if_pos hrow, Grid.entry_put]

theorem rows_openGame {row : Nat} :
    row ∈ (w.openGame name).sheet.rows ↔ (row = 1 ∨ row ∈ w.sheet.rows) ∧ row ≤ w.lastPlayer := by
  show row ∈ ((w.sheet.put (1, w.lastColumn + 1) _).upTo w.lastPlayer).rows ↔ _
  rw [Grid.mem_rows_upTo, Grid.mem_rows_put]

theorem opened_openGame (h : Tidy w) : Opened w (w.openGame name) where
  lastPlayer := rfl
  present row hrow := rows_openGame.mpr ⟨.inr (h.present row hrow), (mem_playerRows.mp hrow).2⟩
  below place hplace := by
    show ((w.sheet.put (1, w.lastColumn + 1) _).upTo w.lastPlayer).entry place = _
    have hbelow : ¬ place.1 ≤ w.lastPlayer := Nat.not_le.mpr hplace
    rw [Grid.entry_upTo, if_neg hbelow]

theorem two_le_credited {row : Nat} (h : w.Credited bot floatText players row) : row ∈ w.playerRows := by
  obtain ⟨player, -, hrow⟩ := h
  exact mem_playerRows_of_matching hrow

/-- What is in the rows that were there. -/
theorem Marking.entry (hm : Marking bot floatText w (w.openGame name) players m lookup) {row : Nat}
    (hrow : row ≤ w.lastPlayer) (column : Nat) : m.sheet.entry (row, column) =
      if column = w.lastColumn + 1 ∧ row = 1 then { content := .text name }
      else if column = w.lastColumn + 1 ∧ w.Credited bot floatText players row then { content := .number 1 }
      else w.sheet.entry (row, column) := by
  rw [hm.old (row, column) hrow, entry_openGame hrow]
  have hlast : (w.openGame name).lastColumn = w.lastColumn + 1 := rfl
  simp only [hlast, Prod.mk.injEq]
  by_cases hcolumn : column = w.lastColumn + 1
  · by_cases hone : row = 1
    · have hnot : ¬ w.Credited bot floatText players row := by
        intro hcredited
        have := (mem_playerRows.mp (two_le_credited hcredited)).1
        omega
      rw [if_neg fun h => hnot h.2, if_pos ⟨hone, hcolumn⟩, if_pos ⟨hcolumn, hone⟩]
    · simp only [hcolumn, hone, true_and, false_and, and_false, if_false]
  · simp only [hcolumn, false_and, and_false, if_false]

theorem Marking.lastPlayer (hm : Marking bot floatText w o players m lookup) :
    m.lastPlayer = o.lastPlayer + (w.newcomers bot floatText players).length :=
  (congrArg StatisticsWorkbook.lastPlayer hm.same).trans rfl

/-- A row of the marked sheet was there or is a newcomer's. -/
theorem Marking.row_cases (hm : Marking bot floatText w (w.openGame name) players m lookup) {row : Nat}
    (hrow : row ∈ m.playerRows) : row ∈ w.playerRows ∨ ∃ index other,
      (w.newcomers bot floatText players)[index]? = some other ∧ row = w.lastPlayer + 1 + index := by
  obtain ⟨hlow, hhigh⟩ := mem_playerRows.mp hrow
  rw [hm.lastPlayer] at hhigh
  have hsame : (w.openGame name).lastPlayer = w.lastPlayer := rfl
  rw [hsame] at hhigh
  by_cases hold : row ≤ w.lastPlayer
  · exact .inl (mem_playerRows.mpr ⟨hlow, hold⟩)
  · have hindex : row - (w.lastPlayer + 1) < (w.newcomers bot floatText players).length := by omega
    exact .inr ⟨row - (w.lastPlayer + 1), _, List.getElem?_eq_getElem hindex, by omega⟩

theorem Marking.newEntry (hm : Marking bot floatText w (w.openGame name) players m lookup) {index : Nat}
    {other : String} (hother : (w.newcomers bot floatText players)[index]? = some other) (column : Nat) :
    m.sheet.entry (w.lastPlayer + 1 + index, column) =
      if column = w.lastColumn + 1 then { content := .number 1 }
      else StatisticsWorkbook.newEntry w.layout other column :=
  hm.new index other hother column

theorem Marking.ready (hm : Marking bot floatText w (w.openGame name) players m lookup) (htidy : Tidy w)
    (hname : name ≠ "") (hplayers : ∀ player ∈ players, player ∉ w.layout.footerTitles) : Ready m := by
  have hbook : m.book = w.book := (congrArg StatisticsWorkbook.book hm.same).trans rfl
  have hcolumn : m.lastColumn = w.lastColumn + 1 := (congrArg StatisticsWorkbook.lastColumn hm.same).trans rfl
  have hlast : m.lastPlayer = w.lastPlayer + (w.newcomers bot floatText players).length := hm.lastPlayer
  have hfixed := htidy.fixed
  have hfour := four_lt_fixedColumn w
  have hheader (column : Nat) : m.sheet.entry (1, column) =
      if column = w.lastColumn + 1 then { content := .text name } else w.sheet.entry (1, column) := by
    rw [hm.entry htidy.first]
    have hnot : ¬ w.Credited bot floatText players 1 := by
      intro hcredited
      have := (mem_playerRows.mp (two_le_credited hcredited)).1
      omega
    simp only [and_true, hnot, and_false, if_false]
  refine ⟨fun row hrow => ?_, ?_, fun row hrow => ?_, ?_, ?_, fun row hrow column hbeyond => ?_⟩
  · rcases (hm.rows row).mp hrow with hold | hnew
    · rcases (rows_openGame.mp hold).1 with rfl | hin
      · exact Nat.le_refl 1
      · exact htidy.positive row hin
    · omega
  · have := htidy.first
    omega
  · rw [hbook]
    rcases hm.row_cases hrow with hold | ⟨index, other, hother, rfl⟩
    · have hentry : m.sheet.entry (row, 1) = w.sheet.entry (row, 1) := by
        have hone : ¬ 1 = w.lastColumn + 1 := by omega
        rw [hm.entry (mem_playerRows.mp hold).2]
        simp only [hone, false_and, if_false]
      rw [isPlayerRow_congr hentry]
      exact htidy.players row hold
    · have hone : ¬ 1 = w.lastColumn + 1 := by omega
      have hentry : m.sheet.entry (w.lastPlayer + 1 + index, 1) = { content := .text other } := by
        rw [hm.newEntry hother, if_neg hone, StatisticsWorkbook.newEntry, if_pos ⟨Nat.le_refl 1, by omega⟩]
        rfl
      refine isPlayerRow_iff.mpr ⟨⟨other, ?_, ?_⟩, ?_⟩
      · rw [cellValue, hentry]
        rfl
      · exact hplayers other (newcomers_subset other (List.mem_of_getElem? hother))
      · rw [hentry]
  · rw [hbook, hasHeaders_iff]
    intro header hmem
    have hle := requiredHeaders_le w.book header hmem
    have hne : ¬ header.1 = w.lastColumn + 1 := by
      have : w.book.layout.fixedColumn = w.layout.fixedColumn := rfl
      omega
    have hentry : m.sheet.entry (1, header.1) = w.sheet.entry (1, header.1) := by
      rw [hheader, if_neg hne]
    rw [cellValue_congr hentry]
    exact hasHeaders_iff.mp htidy.headers header hmem
  · rw [hcolumn]
    refine lastHeader_eq ?_ fun other hother => ?_
    · rw [cellValue, hheader, if_pos rfl]
      exact isFilled_text hname
    · by_cases hnew : other = w.lastColumn + 1
      · exact Nat.le_of_eq hnew
      · rw [cellValue, hheader, if_neg hnew] at hother
        have := le_lastHeader hother
        rw [htidy.column] at this
        omega
  · rw [hcolumn] at hbeyond
    have hne : ¬ column = w.lastColumn + 1 := by omega
    rcases hm.row_cases hrow with hold | ⟨index, other, hother, rfl⟩
    · rw [hm.entry (mem_playerRows.mp hold).2]
      simp only [hne, false_and, if_false]
      exact htidy.clear row hold column (by omega)
    · rw [hm.newEntry hother, if_neg hne, StatisticsWorkbook.newEntry, if_neg]
      omega

theorem Marking.within (hm : Marking bot floatText w (w.openGame name) players m lookup) :
    ∀ row ∈ m.sheet.rows, row ≤ m.lastPlayer := by
  intro row hrow
  have hlast : m.lastPlayer = w.lastPlayer + (w.newcomers bot floatText players).length := hm.lastPlayer
  rcases (hm.rows row).mp hrow with hold | hnew
  · have := (rows_openGame.mp hold).2
    omega
  · have hsame : (w.openGame name).lastPlayer = w.lastPlayer := rfl
    omega

end Marked

/-! ## The totals -/

section Totals

variable {row : Nat}

theorem carriedColumn_eq (w : StatisticsWorkbook) : w.layout.carriedColumn = 3 := by
  unfold layout
  cases w.book <;> rfl

theorem total_congr (hbook : w'.book = w.book) (hseason : w'.season = w.season)
    (hcolumn : w'.lastColumn = w.lastColumn)
    (h : ∀ column, column = 3 ∨ column ∈ w.gameColumns → w'.sheet.entry (row, column) = w.sheet.entry (row, column)) :
    w'.total row = w.total row := by
  have hlayout : w'.layout = w.layout := by
    unfold layout
    rw [hbook]
  have hgames : w'.gameColumns = w.gameColumns := by
    unfold gameColumns
    rw [hlayout, hcolumn]
  unfold total
  rw [hgames, carriedColumn_eq, carriedColumn_eq, number_congr hseason (h 3 (.inl rfl)),
    mapM_congr fun column hin => number_congr hseason (h column (.inr hin))]

theorem mem_gameColumns {column : Nat} :
    column ∈ w.gameColumns ↔ w.layout.fixedColumn < column ∧ column ≤ w.lastColumn := by
  unfold gameColumns
  rw [List.mem_range'_1, gameColumn_eq]
  omega

theorem gameColumns_succ (hlayout : w'.layout = w.layout) (hcolumn : w'.lastColumn = w.lastColumn + 1)
    (hfixed : w.layout.fixedColumn ≤ w.lastColumn) : w'.gameColumns = w.gameColumns ++ [w.lastColumn + 1] := by
  have hgame := gameColumn_eq w
  unfold gameColumns
  rw [hlayout, hcolumn]
  have hlength : w.lastColumn + 1 + 1 - w.layout.gameColumn = w.lastColumn + 1 - w.layout.gameColumn + 1 := by omega
  have hend : w.layout.gameColumn + 1 * (w.lastColumn + 1 - w.layout.gameColumn) = w.lastColumn + 1 := by omega
  rw [hlength, List.range'_concat, hend]

theorem number_of_blankEntry {place : Place} (h : w.sheet.entry place = {}) : w.number place true = .ok 0 := by
  unfold number
  rw [h]
  rfl

theorem number_of_entry {place : Place} {value : ℚ} {sumCell : Bool}
    (h : w.sheet.entry place = { content := .number value }) : w.number place sumCell = .ok value := by
  unfold number
  rw [h]

/-- A season without games. -/
theorem total_of_fixed {value : ℚ} (hcolumn : w.lastColumn = w.layout.fixedColumn)
    (h : w.sheet.entry (row, 3) = { content := .number value }) : w.total row = .ok value := by
  have hgames : w.gameColumns = [] := by
    refine List.eq_nil_iff_forall_not_mem.mpr fun column hin => ?_
    obtain ⟨hlow, hhigh⟩ := mem_gameColumns.mp hin
    omega
  unfold total
  rw [carriedColumn_eq, number_of_entry h, hgames, List.mapM_nil]
  show Except.ok (value + ([] : List ℚ).sum) = Except.ok value
  rw [List.sum_nil, add_zero]

/-- One more column. -/
theorem total_column {mark : ℚ} (hbook : w'.book = w.book) (hseason : w'.season = w.season)
    (hcolumn : w'.lastColumn = w.lastColumn + 1) (hfixed : w.layout.fixedColumn ≤ w.lastColumn)
    (h : ∀ column, column = 3 ∨ column ∈ w.gameColumns → w'.sheet.entry (row, column) = w.sheet.entry (row, column))
    (hmark : w'.number (row, w.lastColumn + 1) true = .ok mark) :
    w'.total row = (do return (← w.total row) + mark) := by
  have hlayout : w'.layout = w.layout := by
    unfold layout
    rw [hbook]
  unfold total
  rw [gameColumns_succ hlayout hcolumn hfixed, carriedColumn_eq, carriedColumn_eq,
    number_congr hseason (h 3 (.inl rfl)), List.mapM_append,
    mapM_congr fun column hin => number_congr hseason (h column (.inr hin)), List.mapM_cons, hmark, List.mapM_nil]
  cases w.number (row, 3) with
  | error failure => rfl
  | ok carried =>
    cases w.gameColumns.mapM fun column => w.number (row, column) true with
    | error failure => rfl
    | ok games =>
      show Except.ok (carried + (games ++ [mark]).sum) = Except.ok (carried + games.sum + mark)
      rw [List.sum_append, List.sum_singleton, add_assoc]

end Totals

/-! ## The game -/

section Game

variable {name : String} {players : List String} {lookup : List (String × Nat)}

variable (bot floatText) in
/-- What a workbook has after a game was entered. -/
structure Entered (w w' : StatisticsWorkbook) (name : String) (players : List String) : Prop where
  same : w' = { w with
    sheets := w'.sheets
    sheet := w'.sheet
    lastColumn := w.lastColumn + 1
    lastPlayer := w.lastPlayer + (w.newcomers bot floatText players).length }
  saved : w'.sheets = w.sheets.modify w.path fun sheet => (sheet.1, w'.sheet)
  tidy : Tidy w'
  readable : Readable w'
  header : ∀ column, w'.sheet.entry (1, column) =
    if column = w.lastColumn + 1 then { content := .text name } else w.sheet.entry (1, column)
  kept : ∀ row ∈ w.playerRows, ∀ column, column ≠ 2 → column ≠ w.layout.totalColumn →
    w'.sheet.entry (row, column) =
      if column = w.lastColumn + 1 ∧ w.Credited bot floatText players row then { content := .number 1 }
      else w.sheet.entry (row, column)
  new : ∀ index other, (w.newcomers bot floatText players)[index]? = some other → ∀ column, column ≠ 2 →
    column ≠ w.layout.totalColumn → w'.sheet.entry (w.lastPlayer + 1 + index, column) =
      if column = w.lastColumn + 1 then { content := .number 1 } else newEntry w.layout other column
  credited : ∀ row ∈ w.playerRows, ∃ total, w.total row = .ok total ∧
    w'.total row = .ok (total + if w.Credited bot floatText players row then 1 else 0)
  started : ∀ index < (w.newcomers bot floatText players).length, w'.total (w.lastPlayer + 1 + index) = .ok 1

theorem Marking.season (hm : Marking bot floatText w o players m lookup) : m.season = o.season :=
  (congrArg StatisticsWorkbook.season hm.same).trans rfl

/-- The marks of a row are what its total grows by. -/
theorem Marking.total (hm : Marking bot floatText w (w.openGame name) players m lookup) (htidy : Tidy w) {row : Nat}
    (hrow : row ∈ w.playerRows) :
    m.total row = (do return (← w.total row) + if w.Credited bot floatText players row then 1 else 0) := by
  have hbook : m.book = w.book := (congrArg StatisticsWorkbook.book hm.same).trans rfl
  have hcolumn : m.lastColumn = w.lastColumn + 1 := (congrArg StatisticsWorkbook.lastColumn hm.same).trans rfl
  have hseason : m.season = w.season := hm.season
  have hfixed := htidy.fixed
  have hfour := four_lt_fixedColumn w
  obtain ⟨hlow, hhigh⟩ := mem_playerRows.mp hrow
  have hone : ¬ row = 1 := by omega
  refine total_column hbook hseason hcolumn hfixed (fun column hin => ?_) ?_
  · have hne : ¬ column = w.lastColumn + 1 := by
      rcases hin with rfl | hin
      · omega
      · have := (mem_gameColumns.mp hin).2
        omega
    rw [hm.entry hhigh]
    simp only [hne, false_and, if_false]
  · have hentry := hm.entry hhigh (w.lastColumn + 1)
    simp only [hone, and_false, if_false, true_and] at hentry
    by_cases hcredited : w.Credited bot floatText players row
    · rw [if_pos hcredited] at hentry ⊢
      unfold number
      rw [hentry]
    · rw [if_neg hcredited, htidy.clear row hrow _ (Nat.lt_succ_self _)] at hentry
      rw [if_neg hcredited]
      exact number_of_blankEntry hentry

theorem Marking.newTotal (hm : Marking bot floatText w (w.openGame name) players m lookup) (htidy : Tidy w)
    {index : Nat} {other : String} (hother : (w.newcomers bot floatText players)[index]? = some other) :
    m.total (w.lastPlayer + 1 + index) = .ok 1 := by
  have hlayout : m.layout = w.layout := (congrArg StatisticsWorkbook.layout hm.same).trans rfl
  have hcolumn : m.lastColumn = w.lastColumn + 1 := (congrArg StatisticsWorkbook.lastColumn hm.same).trans rfl
  have hfixed := htidy.fixed
  have hfour := four_lt_fixedColumn w
  have haward : 3 < w.layout.awardColumn := by
    unfold layout
    cases w.book <;> decide
  have hthree : ¬ 3 = w.lastColumn + 1 := by omega
  have hcarried : m.number (w.lastPlayer + 1 + index, 3) = .ok 0 := by
    have hentry := hm.newEntry hother 3
    rw [if_neg hthree, StatisticsWorkbook.newEntry, if_pos ⟨by omega, by omega⟩, newPlayerValue, if_neg (by omega),
      if_neg (by omega)] at hentry
    unfold number
    rw [hentry]
  have hzero : (w.gameColumns.mapM fun column => m.number (w.lastPlayer + 1 + index, column) true) =
      .ok (w.gameColumns.map fun _ => 0) := by
    have hnumber : ∀ column ∈ w.gameColumns, m.number (w.lastPlayer + 1 + index, column) true = .ok 0 := by
      intro column hin
      have hbounds := mem_gameColumns.mp hin
      have hne : ¬ column = w.lastColumn + 1 := by omega
      have hentry := hm.newEntry hother column
      rw [if_neg hne, StatisticsWorkbook.newEntry, if_neg (by omega)] at hentry
      exact number_of_blankEntry hentry
    have hall := mapM_of_amounts fun column hin => eq_amount (hnumber column hin)
    rw [hall]
    congr 1
    exact List.map_congr_left fun column hin => by rw [hnumber column hin]; rfl
  have hmark : m.number (w.lastPlayer + 1 + index, w.lastColumn + 1) true = .ok 1 := by
    have hentry := hm.newEntry hother (w.lastColumn + 1)
    rw [if_pos rfl] at hentry
    unfold number
    rw [hentry]
  unfold StatisticsWorkbook.total
  rw [carriedColumn_eq, hcarried, gameColumns_succ hlayout hcolumn hfixed, List.mapM_append, hzero,
    List.mapM_cons, hmark, List.mapM_nil]
  show Except.ok (0 + ((w.gameColumns.map fun _ => (0 : ℚ)) ++ [1]).sum) = Except.ok 1
  rw [List.sum_append, List.sum_singleton, List.sum_map_zero, zero_add, zero_add]

theorem entered_markGame (htidy : Tidy w) (hname : name ≠ "")
    (hplayers : ∀ player ∈ players, player ∉ w.layout.footerTitles)
    (h : w.markGame bot floatText name players = .ok (some w')) : Entered bot floatText w w' name players := by
  unfold markGame at h
  split at h
  · exact nomatch Except.ok.inj h
  · obtain ⟨r, hrefresh, hsave⟩ := exists_of_bind h
    obtain rfl := Option.some.inj (Except.ok.inj hsave)
    have hopened : Opened w (w.openGame name) := opened_openGame htidy
    obtain ⟨lookup, hm⟩ :
        ∃ lookup, Marking bot floatText w (w.openGame name) players ((w.openGame name).markPlayers bot
        (w.lookupReversed bot floatText) (w.lookupNames bot floatText) players) lookup :=
      marking_markPlayers hopened players
    generalize (w.openGame name).markPlayers bot (w.lookupReversed bot floatText) (w.lookupNames bot floatText)
      players = m at hm hrefresh
    have hrefreshed := refreshed_refresh hrefresh
    have hready := hm.ready htidy hname hplayers
    have hlast : m.lastPlayer = w.lastPlayer + (w.newcomers bot floatText players).length := hm.lastPlayer
    have hlayout : m.layout = w.layout := (congrArg StatisticsWorkbook.layout hm.same).trans rfl
    have hfixed := htidy.fixed
    have hfour := four_lt_fixedColumn w
    have htotals := totalColumn_lt w
    have hrbook : r.book = m.book := (congrArg StatisticsWorkbook.book hrefreshed.same).trans rfl
    have hrseason : r.season = m.season := (congrArg StatisticsWorkbook.season hrefreshed.same).trans rfl
    have hrcolumn : r.lastColumn = m.lastColumn := (congrArg StatisticsWorkbook.lastColumn hrefreshed.same).trans rfl
    have hpath : r.path = w.path := ((congrArg StatisticsWorkbook.path hrefreshed.same).trans rfl).trans
      ((congrArg StatisticsWorkbook.path hm.same).trans rfl)
    have hsheets : r.sheets = w.sheets := ((congrArg StatisticsWorkbook.sheets hrefreshed.same).trans rfl).trans
      ((congrArg StatisticsWorkbook.sheets hm.same).trans rfl)
    have htidyr := hrefreshed.tidy hready
    have hreadable := hrefreshed.reads_back hready hm.within
    have htotal (row : Nat) (hrow : row ∈ m.playerRows) : r.save.total row = m.total row :=
      total_congr (w := m) hrbook hrseason hrcolumn fun column hin => hrefreshed.kept_input hrow hin
    have holdRow {row : Nat} (hrow : row ∈ w.playerRows) : row ∈ m.playerRows := by
      obtain ⟨hlow, hhigh⟩ := mem_playerRows.mp hrow
      exact mem_playerRows.mpr ⟨hlow, by omega⟩
    refine ⟨?_, ?_, ⟨⟨htidyr.positive, htidyr.first, htidyr.players, htidyr.headers, htidyr.column, htidyr.clear⟩,
      htidyr.present⟩, ⟨hreadable.lastPlayer, hreadable.footer⟩, fun column => ?_,
      fun row hrow column htwo hresult => ?_, fun index other hother column htwo hresult => ?_,
      fun row hrow => ?_, fun index hindex => ?_⟩
    · rw [save, hrefreshed.same, hm.same]
      rfl
    · show r.sheets.modify r.path _ = _
      rw [hsheets, hpath]
      rfl
    · have hone : 1 ≤ m.lastPlayer := by
        have := htidy.first
        omega
      have hnot : ¬ w.Credited bot floatText players 1 := by
        intro hcredited
        have := (mem_playerRows.mp (two_le_credited hcredited)).1
        omega
      show r.sheet.entry (1, column) = _
      rw [hrefreshed.kept_of hone (.inl (by decide)), hm.entry htidy.first]
      simp only [and_true, hnot, and_false, if_false]
    · have hhigh := (mem_playerRows.mp (holdRow hrow)).2
      obtain ⟨hlow, hhighw⟩ := mem_playerRows.mp hrow
      have hone : ¬ row = 1 := by omega
      show r.sheet.entry (row, column) = _
      rw [hrefreshed.kept_of hhigh (.inr ⟨htwo, hlayout ▸ hresult⟩), hm.entry hhighw]
      simp only [hone, and_false, if_false]
    · have hindex := (List.getElem?_eq_some_iff.mp hother).1
      show r.sheet.entry (w.lastPlayer + 1 + index, column) = _
      rw [hrefreshed.kept_of (by omega) (.inr ⟨htwo, hlayout ▸ hresult⟩), hm.newEntry hother]
    · have hread := hrefreshed.readable row (holdRow hrow)
      rw [hm.total htidy hrow] at hread
      obtain ⟨total, htotalw, -⟩ := exists_of_bind hread
      refine ⟨total, htotalw, ?_⟩
      rw [htotal row (holdRow hrow), hm.total htidy hrow, htotalw]
      rfl
    · have hfirst := htidy.first
      have hrow : w.lastPlayer + 1 + index ∈ m.playerRows := mem_playerRows.mpr ⟨by omega, by omega⟩
      rw [htotal _ hrow]
      exact hm.newTotal htidy (List.getElem?_eq_getElem hindex)

end Game

/-! ## The next season -/

section Season

variable {year : Int} {totals : List ℚ}

theorem entry_carryOver {place : Place} (htotals : totals = w.playerRows.map fun row => amount (w.total row)) :
    (w.carryOver year totals).sheet.entry place =
      if place.1 ∈ w.playerRows ∧ place.2 = 3 then { content := .number (amount (w.total place.1)) }
      else if place = (1, 3) then { content := .text (w.book.carriedHeader year) }
      else if place.1 ≤ w.lastPlayer ∧ place.2 ≤ w.layout.fixedColumn then w.sheet.entry place else {} := by
  subst htotals
  have hcells : ((w.playerRows.zip (w.playerRows.map fun row => amount (w.total row))).map fun entry =>
      (((entry.1, w.layout.carriedColumn) : Place), ({ content := .number entry.2 } : Entry ℚ))) =
        w.playerRows.map fun row => ((row, 3), { content := .number (amount (w.total row)) }) := by
    rw [zip_amounts, List.map_map, carriedColumn_eq]
    rfl
  have hplaces : (w.playerRows.map fun row => (((row, 3) : Place),
      ({ content := .number (amount (w.total row)) } : Entry ℚ))).map Prod.fst = w.playerRows.map fun row =>
        (row, 3) := by
    rw [List.map_map]
    rfl
  have hnodup : (w.playerRows.map fun row => ((row, 3) : Place)).Nodup :=
    nodup_playerRows.map fun a b hab => (Prod.mk.inj hab).1
  show (Grid.write _ _).entry place = _
  rw [hcells]
  by_cases hcarried : place.1 ∈ w.playerRows ∧ place.2 = 3
  · rw [if_pos hcarried]
    have hplace : place = (place.1, 3) := Prod.ext rfl hcarried.2
    rw [hplace]
    apply Grid.entry_write_of_mem (hplaces ▸ hnodup)
    exact List.mem_map_of_mem (f := fun row => (((row, 3) : Place),
      ({ content := .number (amount (w.total row)) } : Entry ℚ))) hcarried.1
  · rw [if_neg hcarried, Grid.entry_write_of_notMem, Grid.entry_put, carriedColumn_eq, Grid.entry_keepCells,
      Grid.entry_upTo]
    · by_cases hheader : place = (1, 3)
      · rw [if_pos hheader, if_pos hheader]
      · rw [if_neg hheader, if_neg hheader]
        by_cases hcolumn : place.2 ≤ w.layout.fixedColumn
        · by_cases hrow : place.1 ≤ w.lastPlayer
          · simp only [hcolumn, hrow, decide_true, and_self, if_true]
          · simp only [hcolumn, hrow, decide_true, false_and, if_true, if_false]
        · simp only [hcolumn, decide_false, Bool.false_eq_true, and_false, if_false]
    · rw [hplaces]
      intro hin
      obtain ⟨row, hrow, rfl⟩ := List.mem_map.mp hin
      exact hcarried ⟨hrow, rfl⟩

theorem rows_carryOver (hpresent : ∀ row ∈ w.playerRows, row ∈ w.sheet.rows) {row : Nat}
    (h : row ∈ (w.carryOver year totals).sheet.rows) : row = 1 ∨ row ∈ w.sheet.rows ∧ row ≤ w.lastPlayer := by
  have h : row ∈ (Grid.write _ _).rows := h
  rcases Grid.mem_rows_write.mp h with hold | ⟨place, hplace, rfl⟩
  · rcases Grid.mem_rows_put.mp hold with hone | hkept
    · exact .inl hone
    · rw [Grid.rows_keepCells] at hkept
      exact .inr (Grid.mem_rows_upTo.mp hkept)
  · rw [List.map_map] at hplace
    obtain ⟨⟨row, total⟩, hzip, rfl⟩ := List.mem_map.mp hplace
    have hrow := (List.of_mem_zip hzip).1
    exact .inr ⟨hpresent row hrow, (mem_playerRows.mp hrow).2⟩

/-- What a workbook has in a new season. -/
structure Rolled (w w' : StatisticsWorkbook) (title : String) : Prop where
  same : w' = { w with
    sheets := w'.sheets
    path := title
    sheet := w'.sheet
    lastColumn := w.layout.fixedColumn }
  sheets : w'.sheets.rows = (title, w'.sheet) :: w.sheets.rows
  later : w.season ≤ title
  tidy : Tidy w'
  readable : Readable w'
  kept : ∀ row ∈ w.playerRows, ∀ column, column ∉ [2, 3, w.layout.totalColumn] → column ≤ w.layout.fixedColumn →
    w'.sheet.entry (row, column) = w.sheet.entry (row, column)
  carried : ∀ row ∈ w.playerRows, ∃ total, w.total row = .ok total ∧ w'.total row = .ok total ∧
    w'.sheet.entry (row, 3) = { content := .number total }

theorem Refreshed.total {r : StatisticsWorkbook} (h : Refreshed w r) {row : Nat} (hrow : row ∈ w.playerRows) :
    r.save.total row = w.total row :=
  total_congr (w := w) ((congrArg StatisticsWorkbook.book h.same).trans rfl)
    ((congrArg StatisticsWorkbook.season h.same).trans rfl)
    ((congrArg StatisticsWorkbook.lastColumn h.same).trans rfl) fun _ hin => h.kept_input hrow hin

theorem ready_carryOver (htidy : Tidy w) {o : StatisticsWorkbook}
    (hsame : o = { w.carryOver year (w.playerRows.map fun row => amount (w.total row)) with
      path := o.path, sheets := o.sheets }) : Ready o := by
  have hbook : o.book = w.book := (congrArg StatisticsWorkbook.book hsame).trans rfl
  have hlast : o.lastPlayer = w.lastPlayer := (congrArg StatisticsWorkbook.lastPlayer hsame).trans rfl
  have hcolumn : o.lastColumn = w.layout.fixedColumn := (congrArg StatisticsWorkbook.lastColumn hsame).trans rfl
  have hrows : o.playerRows = w.playerRows := (congrArg StatisticsWorkbook.playerRows hsame).trans rfl
  have hsheet : o.sheet = (w.carryOver year (w.playerRows.map fun row => amount (w.total row))).sheet :=
    (congrArg StatisticsWorkbook.sheet hsame).trans rfl
  have hfirst := htidy.first
  have hfour := four_lt_fixedColumn w
  have hentry (place : Place) :
      (w.carryOver year (w.playerRows.map fun row => amount (w.total row))).sheet.entry place =
      if place.1 ∈ w.playerRows ∧ place.2 = 3 then { content := .number (amount (w.total place.1)) }
      else if place = (1, 3) then { content := .text (w.book.carriedHeader year) }
      else if place.1 ≤ w.lastPlayer ∧ place.2 ≤ w.layout.fixedColumn then w.sheet.entry place else {} :=
    entry_carryOver rfl
  have hone : (1 : Nat) ∉ w.playerRows := by
    intro hin
    have := (mem_playerRows.mp hin).1
    omega
  have hheader (column : Nat) (hne : column ≠ 3) (hle : column ≤ w.layout.fixedColumn) :
      o.sheet.entry (1, column) = w.sheet.entry (1, column) := by
    rw [hsheet, hentry, if_neg fun h => hone h.1, if_neg fun h => hne (Prod.mk.inj h).2, if_pos ⟨hfirst, hle⟩]
  have hbeyond (row column : Nat) (hgt : w.layout.fixedColumn < column) : o.sheet.entry (row, column) = {} := by
    rw [hsheet, hentry, if_neg, if_neg, if_neg]
    · rintro ⟨-, hle⟩
      omega
    · intro h
      have := (Prod.mk.inj h).2
      omega
    · rintro ⟨-, h⟩
      have h : column = 3 := h
      omega
  have hthird : o.sheet.entry (1, 3) = { content := .text (w.book.carriedHeader year) } := by
    rw [hsheet, hentry, if_neg fun h => hone h.1, if_pos rfl]
  have hrequired : ∀ header ∈ w.book.layout.requiredHeaders,
      cellValue o.sheet (1, header.1) = some (.text header.2) := by
    intro header hmem
    by_cases hthree : header.1 = 3
    · have htext : header.2 = w.book.carriedHeader year := by
        revert hmem hthree
        cases w.book with
        | attendance =>
          have hnone : ∀ header ∈ StatisticsBook.attendance.layout.requiredHeaders, header.1 ≠ 3 := by decide
          exact fun hmem hthree => absurd hthree (hnone header hmem)
        | masters =>
          have hall : ∀ header ∈ StatisticsBook.masters.layout.requiredHeaders, header.1 = 3 →
              header.2 = "Игр на начало сезона" := by decide
          exact fun hmem hthree => hall header hmem hthree
      rw [hthree, cellValue, hthird, htext]
      rfl
    · rw [cellValue_congr (hheader _ hthree (requiredHeaders_le w.book header hmem))]
      exact hasHeaders_iff.mp htidy.headers header hmem
  refine ⟨fun row hrow => ?_, ?_, fun row hrow => ?_, ?_, ?_, fun row hrow column hgt => ?_⟩
  · rw [hsheet] at hrow
    rcases rows_carryOver htidy.present hrow with rfl | ⟨hin, -⟩
    · exact Nat.le_refl 1
    · exact htidy.positive row hin
  · rw [hlast]
    exact hfirst
  · rw [hrows] at hrow
    obtain ⟨hlow, hhigh⟩ := mem_playerRows.mp hrow
    have hfirstCell : o.sheet.entry (row, 1) = w.sheet.entry (row, 1) := by
      rw [hsheet, hentry, if_neg (by simp), if_neg (by simp), if_pos ⟨hhigh, by show 1 ≤ w.layout.fixedColumn; omega⟩]
    rw [hbook, isPlayerRow_congr hfirstCell]
    exact htidy.players row hrow
  · rw [hbook]
    exact hasHeaders_iff.mpr hrequired
  · rw [hcolumn]
    obtain ⟨title, hmem, hne⟩ := mem_requiredHeaders w.book
    refine lastHeader_eq ?_ fun other hother => ?_
    · have hvalue := hrequired _ hmem
      have hvalue : cellValue o.sheet (1, w.layout.fixedColumn) = some (.text title) := hvalue
      rw [hvalue]
      exact isFilled_text hne
    · by_contra hgt
      rw [cellValue, hbeyond 1 other (by omega)] at hother
      exact absurd hother (by decide)
  · rw [hcolumn] at hgt
    exact hbeyond row column hgt

theorem rolled_newSeason (htidy : Tidy w) (h : w.newSeason year = .ok (some w')) :
    Rolled w w' (seasonTitle year) := by
  unfold newSeason at h
  dsimp only at h
  split at h
  · cases Except.ok.inj h
  · next hnew =>
    split at h
    · cases h
    · next hlater =>
      obtain ⟨totals, htotals, h⟩ := exists_of_bind h
      obtain ⟨r, hrefresh, hsave⟩ := exists_of_bind h
      obtain rfl := Option.some.inj (Except.ok.inj hsave)
      obtain ⟨hreadable, rfl⟩ := amounts_of_mapM htotals
      generalize ho : ({ w.carryOver year (w.playerRows.map fun row => amount (w.total row)) with
        path := seasonTitle year
        sheets := ⟨(seasonTitle year, (w.carryOver year (w.playerRows.map fun row => amount (w.total row))).sheet) ::
          w.sheets.rows, List.nodup_cons.mpr ⟨hnew, w.sheets.nodup⟩⟩ } : StatisticsWorkbook) = o at hrefresh
      have hsame : o = { w.carryOver year (w.playerRows.map fun row => amount (w.total row)) with
          path := o.path, sheets := o.sheets } := by
        rw [← ho]
      have hready := ready_carryOver htidy hsame
      have hrefreshed := refreshed_refresh hrefresh
      have hsheet : o.sheet = (w.carryOver year (w.playerRows.map fun row => amount (w.total row))).sheet :=
        (congrArg StatisticsWorkbook.sheet hsame).trans rfl
      have hrows : o.playerRows = w.playerRows := (congrArg StatisticsWorkbook.playerRows hsame).trans rfl
      have hlast : o.lastPlayer = w.lastPlayer := (congrArg StatisticsWorkbook.lastPlayer hsame).trans rfl
      have hlayout : o.layout = w.layout := (congrArg StatisticsWorkbook.layout hsame).trans rfl
      have hcolumn : o.lastColumn = w.layout.fixedColumn := (congrArg StatisticsWorkbook.lastColumn hsame).trans rfl
      have hpath : r.path = seasonTitle year :=
        ((congrArg StatisticsWorkbook.path hrefreshed.same).trans rfl).trans (by rw [← ho])
      have hsheets : r.sheets.rows = (seasonTitle year,
          (w.carryOver year (w.playerRows.map fun row => amount (w.total row))).sheet) :: w.sheets.rows := by
        rw [show r.sheets = o.sheets from (congrArg StatisticsWorkbook.sheets hrefreshed.same).trans rfl, ← ho]
      have hwithin : ∀ row ∈ o.sheet.rows, row ≤ o.lastPlayer := by
        intro row hrow
        rw [hsheet] at hrow
        rw [hlast]
        rcases rows_carryOver htidy.present hrow with rfl | ⟨-, hle⟩
        · exact htidy.first
        · exact hle
      have htidyr := hrefreshed.tidy hready
      have hread := hrefreshed.reads_back hready hwithin
      have hentry (place : Place) := congrArg (fun grid : Grid ℚ => grid.entry place) hsheet
      have hfour := four_lt_fixedColumn w
      refine ⟨?_, ?_, not_lt.mp hlater,
        ⟨⟨htidyr.positive, htidyr.first, htidyr.players, htidyr.headers, htidyr.column, htidyr.clear⟩,
          htidyr.present⟩,
        ⟨hread.lastPlayer, hread.footer⟩, fun row hrow column hresult hle => ?_, fun row hrow => ?_⟩
      · rw [save, hrefreshed.same, ← ho]
        rfl
      · show (r.sheets.modify r.path _).rows = _
        rw [Table.rows_modify, hsheets, hpath, List.map_cons, if_pos rfl]
        refine congrArg _ ((List.map_congr_left fun sheet hsheet => ?_).trans (List.map_id _))
        have hne : sheet.1 ≠ seasonTitle year := fun heq => hnew (heq ▸ List.mem_map_of_mem hsheet)
        rw [if_neg hne, id]
      · obtain ⟨-, hhigh⟩ := mem_playerRows.mp hrow
        simp only [List.mem_cons, List.not_mem_nil, or_false, not_or] at hresult
        obtain ⟨htwo, hthree, htotal⟩ := hresult
        show r.sheet.entry (row, column) = _
        rw [hrefreshed.kept_of (hlast ▸ hhigh) (.inr ⟨htwo, hlayout ▸ htotal⟩), hsheet, entry_carryOver rfl,
          if_neg fun h => hthree h.2, if_neg fun h => hthree (Prod.mk.inj h).2, if_pos ⟨hhigh, hle⟩]
      · have hplayer : row ∈ o.playerRows := hrows ▸ hrow
        obtain ⟨-, hhigh⟩ := mem_playerRows.mp hplayer
        have hthird : o.sheet.entry (row, 3) = { content := .number (amount (w.total row)) } := by
          rw [hsheet, entry_carryOver rfl, if_pos ⟨hrow, rfl⟩]
        refine ⟨amount (w.total row), hreadable row hrow, ?_, ?_⟩
        · rw [hrefreshed.total hplayer]
          exact total_of_fixed (hcolumn.trans (congrArg WorkbookLayout.fixedColumn hlayout).symm) hthird
        · show r.sheet.entry (row, 3) = _
          rw [hrefreshed.kept_input hplayer (.inl rfl), hthird]

end Season

end StatisticsWorkbook

end LarpBot
