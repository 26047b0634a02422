import LarpBot.Laws.WorkbookCaches
import LarpBot.Laws.WorkbookGames

/-!
# A game in a statistics file

`add_game` on a file: the workbook is loaded, the game goes into the season of its year, which is opened
first where it is a later one, and the file is loaded again. What the next edit finds is what this one had
in memory.
-/

namespace LarpBot

open Worksheets Atomic

/-! ## Loading -/

section Loading

variable {book : StatisticsBook} {file : Sheets} {w : StatisticsWorkbook}

/-- What `load` answers. -/
structure Loaded (book : StatisticsBook) (file : Sheets) (w : StatisticsWorkbook) : Prop where
  same : w = { w with book := book, sheets := file, path := w.season }
  latest : latestSeason file = some (w.season, w.sheet)
  headers : book.hasHeaders w.sheet = true
  lastColumn : w.lastColumn = lastHeader w.sheet
  lastPlayer : w.lastPlayer = lastPlayerRow book w.sheet
  footer : footerAdmitted book w.sheet w.lastPlayer = true

theorem loaded_iff : book.load file = .ok w ↔ Loaded book file w := by
  unfold StatisticsBook.load
  constructor
  · intro h
    cases hlatest : latestSeason file with
    | none =>
      rw [hlatest] at h
      exact nomatch h
    | some found =>
      obtain ⟨season, sheet⟩ := found
      rw [hlatest] at h
      simp only [Bool.and_eq_true] at h
      split at h
      · next hlayout =>
        obtain rfl := Except.ok.inj h
        exact ⟨rfl, hlatest, hlayout.1, rfl, rfl, hlayout.2⟩
      · exact nomatch h
  · intro h
    have hfooter := h.footer
    rw [h.lastPlayer] at hfooter
    rw [h.latest]
    simp only [h.headers, hfooter, Bool.and_self, if_true]
    rw [h.same, ← h.lastColumn, ← h.lastPlayer]

theorem latestSeason_eq_some {title : String} {sheet : Grid ℚ} : latestSeason file = some (title, sheet) ↔
    isSeasonName title = true ∧ (title, sheet) ∈ file.rows ∧
      ∀ other ∈ file.rows.map Prod.fst, isSeasonName other = true → other ≤ title := by
  unfold latestSeason
  rw [Option.bind_eq_some_iff]
  constructor
  · rintro ⟨latest, hlatest, hfound⟩
    obtain ⟨hmem, hkey⟩ := Table.find?_eq_some_iff.mp hfound
    obtain rfl : title = latest := hkey
    obtain ⟨hin, hle⟩ := List.max?_eq_some_iff.mp hlatest
    refine ⟨(List.mem_filter.mp hin).2, hmem, fun other hother hseason => ?_⟩
    exact hle other (List.mem_filter.mpr ⟨hother, hseason⟩)
  · rintro ⟨hseason, hmem, hle⟩
    refine ⟨title, List.max?_eq_some_iff.mpr ⟨?_, fun other hother => ?_⟩, Table.find?_eq_some_iff.mpr ⟨hmem, rfl⟩⟩
    · exact List.mem_filter.mpr ⟨List.mem_map_of_mem hmem, hseason⟩
    · obtain ⟨hin, hother⟩ := List.mem_filter.mp hother
      exact hle other hin hother

theorem Loaded.path_eq (h : Loaded book file w) : w.path = w.season :=
  (congrArg StatisticsWorkbook.path h.same).trans rfl

theorem Loaded.sheets_eq (h : Loaded book file w) : w.sheets = file :=
  (congrArg StatisticsWorkbook.sheets h.same).trans rfl

theorem Loaded.book_eq (h : Loaded book file w) : w.book = book :=
  (congrArg StatisticsWorkbook.book h.same).trans rfl

theorem Loaded.season_mem (h : Loaded book file w) : w.season ∈ w.sheets.rows.map Prod.fst := by
  obtain ⟨-, hmem, -⟩ := latestSeason_eq_some.mp h.latest
  rw [h.sheets_eq]
  exact List.mem_map_of_mem hmem

/-- The years whose season has a name of eight digits. -/
theorem isSeasonName_seasonTitle {year : Int} (hlow : 2000 ≤ year) (hhigh : year ≤ 2098) :
    isSeasonName (StatisticsWorkbook.seasonTitle year) = true := by
  have hall : ∀ k : Fin 99, isSeasonName (StatisticsWorkbook.seasonTitle (2000 + (k.val : Int))) = true := by
    decide +kernel
  have hyear : year = 2000 + (((year - 2000).toNat : Nat) : Int) := by omega
  rw [hyear]
  exact hall ⟨(year - 2000).toNat, by omega⟩

end Loading

namespace StatisticsWorkbook

variable {bot : Deployment} {floatText : ℚ → String} {w v w' m o : StatisticsWorkbook}

/-! ## Loading what was saved -/

section Reload

/-- The workbook as the next edit has it: the season is the one of the sheet that was saved. -/
def reloaded (w : StatisticsWorkbook) : StatisticsWorkbook := { w with season := w.path }

theorem loaded_reloaded (htidy : Tidy w) (hread : Readable w)
    (hlatest : latestSeason w.sheets = some (w.path, w.sheet)) :
    Loaded w.book w.sheets w.reloaded where
  same := rfl
  latest := hlatest
  headers := htidy.headers
  lastColumn := htidy.column.symm
  lastPlayer := hread.lastPlayer.symm
  footer := hread.footer

theorem tidy_reloaded (h : Tidy w) : Tidy w.reloaded :=
  ⟨⟨h.positive, h.first, h.players, h.headers, h.column, h.clear⟩, h.present⟩

theorem number_reloaded {place : Place} {sumCell : Bool} {q : ℚ} (h : w.number place sumCell = .ok q) :
    w.reloaded.number place sumCell = .ok q := by
  unfold number at h ⊢
  have hsheet : w.reloaded.sheet = w.sheet := rfl
  rw [hsheet]
  generalize w.sheet.entry place = entry at h ⊢
  obtain ⟨content, formula⟩ := entry
  cases content with
  | number value => exact h
  | flag value => exact h
  | blank | text _ | fault _ =>
    dsimp only at h ⊢
    split at h
    · next hsum => rw [if_pos hsum]; exact h
    · next hsum =>
      rw [if_neg hsum]
      split at h
      · next hblank => rw [if_pos hblank]; exact h
      · exact nomatch h

theorem total_reloaded {row : Nat} {q : ℚ} (h : w.total row = .ok q) : w.reloaded.total row = .ok q := by
  obtain ⟨carried, hcarried, hrest⟩ := exists_of_bind h
  obtain ⟨games, hgames, hsum⟩ := exists_of_bind hrest
  obtain ⟨hall, rfl⟩ := amounts_of_mapM hgames
  have hthird : w.reloaded.number (row, w.reloaded.layout.carriedColumn) = .ok carried := number_reloaded hcarried
  have hcolumns : (w.reloaded.gameColumns.mapM fun column => w.reloaded.number (row, column) true) =
      .ok (w.gameColumns.map fun column => amount (w.number (row, column) true)) := by
    have hnumber : ∀ column ∈ w.gameColumns, w.reloaded.number (row, column) true = w.number (row, column) true := by
      intro column hin
      rw [hall column hin]
      exact number_reloaded (hall column hin)
    have hsame : w.reloaded.gameColumns = w.gameColumns := rfl
    rw [hsame, mapM_congr hnumber]
    exact hgames
  unfold total
  rw [hthird, hcolumns]
  exact hsum

theorem latestSeason_modify {file : Sheets} {title : String} {sheet new : Grid ℚ}
    (h : latestSeason file = some (title, sheet)) :
    latestSeason (file.modify title fun entry => (entry.1, new)) = some (title, new) := by
  obtain ⟨hseason, hmem, hle⟩ := latestSeason_eq_some.mp h
  have htitles : (file.modify title fun entry => (entry.1, new)).rows.map Prod.fst = file.rows.map Prod.fst :=
    Table.map_rows_modify file title _ _ fun _ => rfl
  refine latestSeason_eq_some.mpr ⟨hseason, ?_, ?_⟩
  · rw [Table.rows_modify]
    exact List.mem_map.mpr ⟨_, hmem, if_pos rfl⟩
  · rw [htitles]
    exact hle

theorem Rolled.latest {title : String} (h : Rolled w v title)
    (hlatest : latestSeason w.sheets = some (w.season, w.sheet))
    (htitle : isSeasonName title = true) : latestSeason v.sheets = some (title, v.sheet) := by
  obtain ⟨-, -, hle⟩ := latestSeason_eq_some.mp hlatest
  rw [latestSeason_eq_some, h.sheets]
  refine ⟨htitle, List.mem_cons_self, fun other hother hseason => ?_⟩
  rw [List.map_cons, List.mem_cons] at hother
  rcases hother with rfl | hold
  · exact le_rfl
  · exact (hle other hold hseason).trans h.later

theorem Entered.latest {name : String} {players : List String} (h : Entered bot floatText v w' name players)
    (hlatest : latestSeason v.sheets = some (v.path, v.sheet)) :
    latestSeason w'.sheets = some (w'.path, w'.sheet) := by
  have hpath : w'.path = v.path := (congrArg StatisticsWorkbook.path h.same).trans rfl
  rw [h.saved, hpath]
  exact latestSeason_modify hlatest

end Reload

/-! ## The same names -/

section Names

theorem playerName_congr {row : Nat} (h : v.sheet.entry (row, 1) = w.sheet.entry (row, 1)) :
    v.playerName floatText row = w.playerName floatText row := by
  unfold playerName
  rw [cellValue_congr h]

/-- Who is found depends on the names of the players only. -/
theorem matchingRows_kept (hbook : v.book = w.book) (hlast : v.lastPlayer = w.lastPlayer)
    (hnames : ∀ row ∈ w.playerRows, v.sheet.entry (row, 1) = w.sheet.entry (row, 1)) :
    v.matchingRows bot floatText = w.matchingRows bot floatText := by
  have hrows : v.playerRows = w.playerRows := by
    unfold playerRows
    rw [hlast]
  have hlayout : v.layout = w.layout := by
    unfold layout
    rw [hbook]
  have hlookup : v.lookupNames bot floatText = w.lookupNames bot floatText := by
    unfold lookupNames
    rw [hrows]
    exact List.map_congr_left fun row hrow => by rw [playerName_congr (hnames row hrow)]
  have hreversed : v.lookupReversed bot floatText = w.lookupReversed bot floatText := by
    have hkeys : (w.playerRows.filterMap fun row =>
          (reversedName bot (v.playerName floatText row)).map fun key => (key, row)) =
        w.playerRows.filterMap fun row => (reversedName bot (w.playerName floatText row)).map fun key => (key, row) :=
      List.filterMap_congr fun row hrow => by rw [playerName_congr (hnames row hrow)]
    unfold lookupReversed
    rw [hlayout, hrows, hkeys]
  funext player
  unfold matchingRows
  rw [hlookup, hreversed]

theorem newcomers_kept (h : v.matchingRows bot floatText = w.matchingRows bot floatText) {players : List String} :
    v.newcomers bot floatText players = w.newcomers bot floatText players := by
  unfold newcomers
  rw [h]

theorem credited_kept (h : v.matchingRows bot floatText = w.matchingRows bot floatText) {players : List String}
    {row : Nat} : v.Credited bot floatText players row ↔ w.Credited bot floatText players row := by
  unfold Credited
  rw [h]

end Names

/-! ## Formulas beside numbers -/

section Caches

variable {name : String} {players : List String} {lookup : List (String × Nat)}

theorem plain_congr (hbook : v.book = w.book) (hlast : v.lastPlayer = w.lastPlayer)
    (hcolumn : v.lastColumn = w.lastColumn)
    (h : ∀ row ∈ w.playerRows, ∀ column, column = 3 ∨ column ∈ w.gameColumns →
      v.sheet.entry (row, column) = w.sheet.entry (row, column)) (hplain : w.Plain) : v.Plain := by
  have hrows : v.playerRows = w.playerRows := by
    unfold playerRows
    rw [hlast]
  have hgames : v.gameColumns = w.gameColumns := by
    unfold gameColumns layout
    rw [hbook, hcolumn]
  have hcontent (row : Nat) (hrow : row ∈ w.playerRows) (column : Nat) (hin : column = 3 ∨ column ∈ w.gameColumns) :
      v.content (row, column) = w.content (row, column) := by
    unfold content
    rw [h row hrow column hin]
  refine ⟨fun row hrow => ?_, fun row hrow column hin => ?_, fun hmasters row hrow => ⟨?_, fun column hin => ?_⟩⟩
  · rw [hrows] at hrow
    rw [hcontent row hrow 3 (.inl rfl)]
    exact hplain.carried row hrow
  · rw [hrows] at hrow
    rw [hgames] at hin
    rw [hcontent row hrow column (.inr hin)]
    exact hplain.marks row hrow column hin
  · rw [hrows] at hrow
    rw [hcontent row hrow 3 (.inl rfl)]
    exact (hplain.counted (hbook ▸ hmasters) row hrow).1
  · rw [hrows] at hrow
    rw [hgames] at hin
    rw [hcontent row hrow column (.inr hin)]
    exact (hplain.counted (hbook ▸ hmasters) row hrow).2 column hin

theorem Refreshed.plain {r : StatisticsWorkbook} (h : Refreshed w r) (hplain : w.Plain) : r.Plain :=
  plain_congr (w := w) ((congrArg StatisticsWorkbook.book h.same).trans rfl)
    ((congrArg StatisticsWorkbook.lastPlayer h.same).trans rfl)
    ((congrArg StatisticsWorkbook.lastColumn h.same).trans rfl) (fun _ hrow _ hin => h.kept_input hrow hin) hplain

/-- The games before the season, as they were or none. -/
theorem Marking.carried_cases (hm : Marking bot floatText w (w.openGame name) players m lookup) (htidy : Tidy w)
    {row : Nat} (hrow : row ∈ m.playerRows) :
    row ∈ w.playerRows ∧ m.content (row, 3) = w.content (row, 3) ∨ m.content (row, 3) = .number 0 := by
  have hfixed := htidy.fixed
  have hfour := four_lt_fixedColumn w
  have hne : ¬ 3 = w.lastColumn + 1 := by omega
  rcases hm.row_cases hrow with hold | ⟨index, other, hother, rfl⟩
  · left
    refine ⟨hold, ?_⟩
    unfold content
    rw [hm.entry (mem_playerRows.mp hold).2]
    simp only [hne, false_and, if_false]
  · right
    have haward : 3 < w.layout.awardColumn := by
      unfold layout
      cases w.book <;> decide
    unfold content
    rw [hm.newEntry hother, if_neg hne, StatisticsWorkbook.newEntry, if_pos ⟨by omega, by omega⟩, newPlayerValue,
      if_neg (by omega), if_neg (by omega)]

/-- The mark of a player for a game: as it was, the new one or none. -/
theorem Marking.mark_cases (hm : Marking bot floatText w (w.openGame name) players m lookup) (htidy : Tidy w)
    {row column : Nat} (hrow : row ∈ m.playerRows) (hcolumn : column ∈ m.gameColumns) :
    row ∈ w.playerRows ∧ column ∈ w.gameColumns ∧ m.content (row, column) = w.content (row, column) ∨
      m.content (row, column) = .number 1 ∨ m.content (row, column) = .blank := by
  have hlayout : m.layout = w.layout := (congrArg StatisticsWorkbook.layout hm.same).trans rfl
  have hlast : m.lastColumn = w.lastColumn + 1 := (congrArg StatisticsWorkbook.lastColumn hm.same).trans rfl
  rw [gameColumns_succ hlayout hlast htidy.fixed, List.mem_append, List.mem_singleton] at hcolumn
  unfold content
  rcases hm.row_cases hrow with hold | ⟨index, other, hother, rfl⟩
  · obtain ⟨hlow, hhigh⟩ := mem_playerRows.mp hold
    have hone : ¬ row = 1 := by omega
    rw [hm.entry hhigh]
    simp only [hone, and_false, if_false]
    by_cases hnew : column = w.lastColumn + 1
    · right
      by_cases hcredited : w.Credited bot floatText players row
      · rw [if_pos ⟨hnew, hcredited⟩]
        exact .inl rfl
      · rw [if_neg fun h => hcredited h.2, hnew, htidy.clear row hold _ (Nat.lt_succ_self _)]
        exact .inr rfl
    · left
      rw [if_neg fun h => hnew h.1]
      exact ⟨hold, hcolumn.resolve_right hnew, rfl⟩
  · right
    rw [hm.newEntry hother]
    by_cases hnew : column = w.lastColumn + 1
    · rw [if_pos hnew]
      exact .inl rfl
    · have := mem_gameColumns.mp (hcolumn.resolve_right hnew)
      rw [if_neg hnew, StatisticsWorkbook.newEntry, if_neg (by omega)]
      exact .inr rfl

theorem Marking.plain (hm : Marking bot floatText w (w.openGame name) players m lookup) (htidy : Tidy w)
    (hplain : w.Plain) : m.Plain := by
  have hbook : m.book = w.book := (congrArg StatisticsWorkbook.book hm.same).trans rfl
  refine ⟨fun row hrow => ?_, fun row hrow column hin => ?_, fun hmasters row hrow => ⟨?_, fun column hin q hq => ?_⟩⟩
  · rcases hm.carried_cases htidy hrow with ⟨hold, hsame⟩ | hzero
    · rw [hsame]
      exact hplain.carried row hold
    · exact .inr ⟨0, hzero⟩
  · rcases hm.mark_cases htidy hrow hin with ⟨hold, hcolumn, hsame⟩ | hone | hblank
    · rw [hsame]
      exact hplain.marks row hold column hcolumn
    · exact .inl (.inr ⟨1, hone⟩)
    · exact .inl (.inl hblank)
  · rcases hm.carried_cases htidy hrow with ⟨hold, hsame⟩ | hzero
    · rw [hsame]
      exact (hplain.counted (hbook ▸ hmasters) row hold).1
    · exact ⟨0, hzero⟩
  · rcases hm.mark_cases htidy hrow hin with ⟨hold, hcolumn, hsame⟩ | hone | hblank
    · rw [hsame] at hq
      exact (hplain.counted (hbook ▸ hmasters) row hold).2 column hcolumn q hq
    · rw [hone] at hq
      rw [← Content.number.inj hq]
      exact zero_le_one
    · rw [hblank] at hq
      exact nomatch hq

theorem resultFormulas_congr (hbook : v.book = w.book) (hlast : v.lastPlayer = w.lastPlayer)
    (hcolumn : v.lastColumn = w.lastColumn) : v.resultFormulas = w.resultFormulas := by
  have hlayout : v.layout = w.layout := by
    unfold layout
    rw [hbook]
  have htotal : v.totalFormula = w.totalFormula := by
    funext row
    unfold totalFormula
    rw [hlayout, hcolumn]
  have hcells : v.playerCells = w.playerCells := by
    funext column
    unfold playerCells
    rw [hlast]
  unfold resultFormulas playerRows gameColumns summary
  rw [hlayout, htotal, hcells, hbook, hlast, hcolumn]

/-- The numbers of a workbook agree with the formulas beside them. -/
def Cached (w : StatisticsWorkbook) : Prop := ∀ cell ∈ w.resultFormulas, w.sheet.Caches cell.1 cell.2

theorem cached_markGame (htidy : Tidy w) (hplain : w.Plain)
    (h : w.markGame bot floatText name players = .ok (some w')) : w'.Plain ∧ (2 ≤ w'.lastPlayer → w'.Cached) := by
  unfold markGame at h
  split at h
  · exact nomatch Except.ok.inj h
  · obtain ⟨r, hrefresh, hsave⟩ := exists_of_bind h
    obtain rfl := Option.some.inj (Except.ok.inj hsave)
    obtain ⟨lookup, hm⟩ :
        ∃ lookup, Marking bot floatText w (w.openGame name) players ((w.openGame name).markPlayers bot
        (w.lookupReversed bot floatText) (w.lookupNames bot floatText) players) lookup :=
      marking_markPlayers (opened_openGame htidy) players
    generalize (w.openGame name).markPlayers bot (w.lookupReversed bot floatText) (w.lookupNames bot floatText)
      players = m at hm hrefresh
    have hrefreshed := refreshed_refresh hrefresh
    have hplainm := hm.plain htidy hplain
    have hbook : r.book = m.book := (congrArg StatisticsWorkbook.book hrefreshed.same).trans rfl
    have hlast : r.lastPlayer = m.lastPlayer := (congrArg StatisticsWorkbook.lastPlayer hrefreshed.same).trans rfl
    have hcolumn : r.lastColumn = m.lastColumn := (congrArg StatisticsWorkbook.lastColumn hrefreshed.same).trans rfl
    constructor
    · exact plain_congr (w := r) rfl rfl rfl (fun _ _ _ _ => rfl) (hrefreshed.plain hplainm)
    · intro hplayers cell hcell
      have hformulas : r.save.resultFormulas = m.resultFormulas := resultFormulas_congr hbook hlast hcolumn
      rw [hformulas] at hcell
      have hplayers : 2 ≤ m.lastPlayer := hlast ▸ hplayers
      exact caches_refresh hplainm hplayers hrefresh cell hcell

/-- The first sheet of a season has numbers before the season and no games. -/
theorem Rolled.plain {title : String} (h : Rolled w v title) : v.Plain := by
  have hrows : v.playerRows = w.playerRows := (congrArg StatisticsWorkbook.playerRows h.same).trans rfl
  have hcolumn : v.lastColumn = w.layout.fixedColumn := (congrArg StatisticsWorkbook.lastColumn h.same).trans rfl
  have hlayout : v.layout = w.layout := (congrArg StatisticsWorkbook.layout h.same).trans rfl
  have hcarried (row : Nat) (hrow : row ∈ v.playerRows) : ∃ q, v.content (row, 3) = .number q := by
    rw [hrows] at hrow
    obtain ⟨total, -, -, hentry⟩ := h.carried row hrow
    refine ⟨total, ?_⟩
    unfold content
    rw [hentry]
  have hnone (column : Nat) : column ∉ v.gameColumns := by
    rw [mem_gameColumns, hlayout, hcolumn]
    omega
  exact ⟨fun row hrow => .inr (hcarried row hrow), fun _ _ column hin => absurd hin (hnone column),
    fun _ row hrow => ⟨hcarried row hrow, fun column hin => absurd hin (hnone column)⟩⟩

end Caches

/-! ## The season of a game -/

section Seasons

variable {title name : String} {players : List String}

/-- A loaded workbook, in the season where a game is to be entered. -/
structure Placed (w v : StatisticsWorkbook) (title : String) : Prop where
  tidy : Tidy v
  book : v.book = w.book
  path : v.path = title
  latest : latestSeason v.sheets = some (v.path, v.sheet)
  later : w.season ≤ title
  opened : w.season = title ∨ title ∉ w.sheets.rows.map Prod.fst
  titles : ∀ other, other ∈ v.sheets.rows.map Prod.fst ↔ other ∈ w.sheets.rows.map Prod.fst ∨ other = title
  history : ∀ other, other ≠ title → v.sheets.find? other = w.sheets.find? other
  lastPlayer : v.lastPlayer = w.lastPlayer
  names : ∀ row ∈ w.playerRows, v.sheet.entry (row, 1) = w.sheet.entry (row, 1)
  headers : w.season = title → v.lastColumn = w.lastColumn ∧ v.sheet = w.sheet
  totals : ∀ row ∈ w.playerRows, ∀ total, v.total row = .ok total → w.total row = .ok total
  plain : w.Plain → v.Plain

variable {book : StatisticsBook} {file : Sheets}

theorem placed_current (hloaded : Loaded book file w) (htidy : Tidy w) : Placed w w w.season where
  tidy := htidy
  book := rfl
  path := hloaded.path_eq
  latest := by
    rw [hloaded.sheets_eq, hloaded.path_eq]
    exact hloaded.latest
  later := le_rfl
  opened := .inl rfl
  titles other := by
    constructor
    · exact Or.inl
    · rintro (hin | rfl)
      · exact hin
      · exact hloaded.season_mem
  history _ _ := rfl
  lastPlayer := rfl
  names _ _ := rfl
  headers _ := ⟨rfl, rfl⟩
  totals _ _ _ h := h
  plain h := h

theorem Rolled.placed (h : Rolled w v title) (hloaded : Loaded book file w) (htitle : isSeasonName title = true) :
    Placed w v title where
  tidy := h.tidy
  book := (congrArg StatisticsWorkbook.book h.same).trans rfl
  path := (congrArg StatisticsWorkbook.path h.same).trans rfl
  latest := by
    have hpath : v.path = title := (congrArg StatisticsWorkbook.path h.same).trans rfl
    rw [hpath]
    exact h.latest (hloaded.sheets_eq ▸ hloaded.latest) htitle
  later := h.later
  opened := by
    have hnodup := v.sheets.nodup
    rw [h.sheets, List.map_cons] at hnodup
    exact .inr (List.nodup_cons.mp hnodup).1
  titles other := by
    rw [h.sheets, List.map_cons, List.mem_cons]
    exact or_comm
  history other hne := by
    have hneg : ¬ decide ((title, v.sheet).1 = other) = true := by
      rw [decide_eq_true_eq]
      exact fun heq => hne heq.symm
    unfold Table.find?
    rw [h.sheets]
    exact List.find?_cons_of_neg hneg
  lastPlayer := (congrArg StatisticsWorkbook.lastPlayer h.same).trans rfl
  names row hrow := by
    have htotal := totalColumn_lt w
    refine h.kept row hrow 1 ?_ (by omega)
    simp only [List.mem_cons, List.not_mem_nil, or_false]
    omega
  headers heq := by
    have hnodup := v.sheets.nodup
    rw [h.sheets, List.map_cons] at hnodup
    exact absurd (heq ▸ hloaded.season_mem) (List.nodup_cons.mp hnodup).1
  totals row hrow total htotal := by
    obtain ⟨carried, hold, hnew, -⟩ := h.carried row hrow
    rw [hnew] at htotal
    rw [hold, Except.ok.inj htotal]
  plain _ := h.plain

end Seasons

/-! ## The game -/

section Additions

variable {edit : StatisticsEdit} {book : StatisticsBook} {file : Sheets} {title : String}

variable (bot floatText) in
/-- What an edit of a loaded workbook leaves for the next one to load. -/
structure Advanced (w w' : StatisticsWorkbook) (edit : StatisticsEdit) : Prop where
  loaded : Loaded w.book w'.sheets w'
  tidy : Tidy w'
  season : w'.season = seasonTitle edit.seasonYear
  later : w.season ≤ w'.season
  opened : w.season = w'.season ∨ w'.season ∉ w.sheets.rows.map Prod.fst
  titles : ∀ other, other ∈ w'.sheets.rows.map Prod.fst ↔ other ∈ w.sheets.rows.map Prod.fst ∨ other = w'.season
  history : ∀ other, other ≠ w'.season → w'.sheets.find? other = w.sheets.find? other
  first : 1 ≤ w.lastPlayer
  lastPlayer : w'.lastPlayer = w.lastPlayer + (w.newcomers bot floatText edit.names).length
  names : ∀ row ∈ w.playerRows, w'.sheet.entry (row, 1) = w.sheet.entry (row, 1)
  newNames : ∀ index other, (w.newcomers bot floatText edit.names)[index]? = some other →
    w'.sheet.entry (w.lastPlayer + 1 + index, 1) = { content := .text other }
  headers : w.season = w'.season → w'.lastColumn = w.lastColumn + 1 ∧
    ∀ column ∈ w.gameColumns, w'.sheet.entry (1, column) = w.sheet.entry (1, column)
  fresh : w.season = w'.season → w.hasGame bot floatText edit.game = false
  game : w'.hasGame bot floatText edit.game = true
  credited : ∀ row ∈ w.playerRows, ∃ total, w.total row = .ok total ∧
    w'.total row = .ok (total + if w.Credited bot floatText edit.names row then 1 else 0)
  started : ∀ index < (w.newcomers bot floatText edit.names).length, w'.total (w.lastPlayer + 1 + index) = .ok 1
  cached : w.Plain → w'.Plain ∧ (2 ≤ w'.lastPlayer → w'.Cached)

theorem hasGame_of_header {name : String} {column : Nat} (hcolumn : column ∈ w.gameColumns)
    (h : w.sheet.entry (1, column) = { content := .text name }) : w.hasGame bot floatText name = true := by
  unfold hasGame
  refine List.any_eq_true.mpr ⟨column, hcolumn, ?_⟩
  have hvalue : cellValue w.sheet (1, column) = some (.text name) := by
    rw [cellValue, h]
    rfl
  rw [hvalue]
  exact decide_eq_true rfl

theorem hasGame_congr (hbook : v.book = w.book) (hcolumn : v.lastColumn = w.lastColumn)
    (h : ∀ column ∈ w.gameColumns, v.sheet.entry (1, column) = w.sheet.entry (1, column)) :
    v.hasGame bot floatText = w.hasGame bot floatText := by
  have hgames : v.gameColumns = w.gameColumns := by
    unfold gameColumns layout
    rw [hbook, hcolumn]
  funext name
  unfold hasGame
  rw [hgames, Bool.eq_iff_iff, List.any_eq_true, List.any_eq_true]
  refine exists_congr fun column => and_congr_right fun hin => ?_
  rw [cellValue_congr (h column hin)]

theorem fresh_of_markGame {name : String} {players : List String}
    (h : w.markGame bot floatText name players = .ok (some m)) : w.hasGame bot floatText name = false := by
  unfold markGame at h
  by_cases hgame : w.hasGame bot floatText name = true
  · rw [if_pos hgame] at h
    exact nomatch Except.ok.inj h
  · exact Bool.eq_false_iff.mpr hgame

theorem Entered.advanced (hentered : Entered bot floatText v m edit.game edit.names)
    (hplaced : Placed w v (seasonTitle edit.seasonYear)) (hfresh : v.hasGame bot floatText edit.game = false)
    (hcached : v.Plain → m.Plain ∧ (2 ≤ m.lastPlayer → m.Cached)) :
    Advanced bot floatText w m.reloaded edit := by
  have hbook : m.book = v.book := (congrArg StatisticsWorkbook.book hentered.same).trans rfl
  have hpath : m.path = v.path := (congrArg StatisticsWorkbook.path hentered.same).trans rfl
  have hlayout : m.layout = v.layout := (congrArg StatisticsWorkbook.layout hentered.same).trans rfl
  have hcolumn : m.lastColumn = v.lastColumn + 1 := (congrArg StatisticsWorkbook.lastColumn hentered.same).trans rfl
  have hrows : v.playerRows = w.playerRows := by
    unfold playerRows
    rw [hplaced.lastPlayer]
  have htitle : m.path = seasonTitle edit.seasonYear := hpath.trans hplaced.path
  have hmatching : v.matchingRows bot floatText = w.matchingRows bot floatText :=
    matchingRows_kept hplaced.book hplaced.lastPlayer hplaced.names
  have hnew : v.newcomers bot floatText edit.names = w.newcomers bot floatText edit.names := newcomers_kept hmatching
  have hfixed := hplaced.tidy.fixed
  have hfour := four_lt_fixedColumn v
  have htotalColumn := totalColumn_lt v
  have hsheets : m.sheets.rows.map Prod.fst = v.sheets.rows.map Prod.fst := by
    rw [hentered.saved]
    exact Table.map_rows_modify v.sheets v.path _ _ fun _ => rfl
  have hgames (column : Nat) (hin : column ∈ v.gameColumns) :
      m.sheet.entry (1, column) = v.sheet.entry (1, column) := by
    have := (mem_gameColumns.mp hin).2
    have hne : ¬ column = v.lastColumn + 1 := by omega
    rw [hentered.header, if_neg hne]
  have hlast : m.lastPlayer = v.lastPlayer + (v.newcomers bot floatText edit.names).length :=
    (congrArg StatisticsWorkbook.lastPlayer hentered.same).trans rfl
  have hloaded := loaded_reloaded hentered.tidy hentered.readable (hentered.latest hplaced.latest)
  rw [hbook, hplaced.book] at hloaded
  refine ⟨hloaded, tidy_reloaded hentered.tidy, htitle, ?_, ?_, fun other => ?_, fun other hne => ?_,
    hplaced.lastPlayer ▸ hplaced.tidy.first, ?_, fun row hrow => ?_, fun index other hother => ?_,
    fun hsame => ?_, fun hsame => ?_, ?_, fun row hrow => ?_, fun index hindex => ?_, fun hplain => ?_⟩
  · exact hplaced.later.trans_eq htitle.symm
  · have hopened := hplaced.opened
    rw [← htitle] at hopened
    exact hopened
  · show other ∈ m.sheets.rows.map Prod.fst ↔ _ ∨ other = m.path
    rw [hsheets, htitle]
    exact hplaced.titles other
  · have hne : other ≠ m.path := hne
    show m.sheets.find? other = _
    rw [hentered.saved, Table.find?_modify_of_ne _ (hpath ▸ hne)]
    exact hplaced.history other (htitle ▸ hne)
  · show m.lastPlayer = _
    rw [hlast, hnew, hplaced.lastPlayer]
  · have hne : ¬ 1 = v.lastColumn + 1 := by omega
    show m.sheet.entry (row, 1) = _
    rw [hentered.kept row (hrows ▸ hrow) 1 (by decide) (by omega), if_neg fun h => hne h.1]
    exact hplaced.names row hrow
  · have hne : ¬ 1 = v.lastColumn + 1 := by omega
    show m.sheet.entry (w.lastPlayer + 1 + index, 1) = _
    rw [← hplaced.lastPlayer, hentered.new index other (hnew ▸ hother) 1 (by decide) (by omega), if_neg hne, newEntry,
      if_pos ⟨Nat.le_refl 1, by omega⟩]
    rfl
  · obtain ⟨hvcolumn, hvsheet⟩ := hplaced.headers (hsame.trans htitle)
    refine ⟨hcolumn.trans (congrArg (· + 1) hvcolumn), fun column hin => ?_⟩
    have hin : column ∈ v.gameColumns := by
      rw [mem_gameColumns] at hin ⊢
      unfold layout at hin ⊢
      rw [hplaced.book, hvcolumn]
      exact hin
    show m.sheet.entry (1, column) = _
    rw [hgames column hin, hvsheet]
  · obtain ⟨hvcolumn, hvsheet⟩ := hplaced.headers (hsame.trans htitle)
    rw [← hasGame_congr hplaced.book hvcolumn fun column _ => by rw [hvsheet]]
    exact hfresh
  · have hin : v.lastColumn + 1 ∈ m.gameColumns := by
      rw [mem_gameColumns, hlayout, hcolumn]
      omega
    have hheader : m.sheet.entry (1, v.lastColumn + 1) = { content := .text edit.game } := by
      rw [hentered.header, if_pos rfl]
    exact hasGame_of_header (w := m.reloaded) hin hheader
  · obtain ⟨total, hold, hnow⟩ := hentered.credited row (hrows ▸ hrow)
    refine ⟨total, hplaced.totals row hrow total hold, ?_⟩
    have hnow := total_reloaded hnow
    simp only [credited_kept hmatching] at hnow
    exact hnow
  · rw [← hnew] at hindex
    rw [← hplaced.lastPlayer]
    exact total_reloaded (hentered.started index hindex)
  · obtain ⟨hmplain, hmcached⟩ := hcached (hplaced.plain hplain)
    exact ⟨plain_congr (w := m) rfl rfl rfl (fun _ _ _ _ => rfl) hmplain, hmcached⟩

/-- `add_game`, where it revises a file. -/
theorem advanced_addGame (hloaded : Loaded book file w) (htidy : Tidy w)
    (htitle : isSeasonName (seasonTitle edit.seasonYear) = true) (hgame : edit.game ≠ "")
    (hnames : ∀ name ∈ edit.names, name ∉ book.layout.footerTitles)
    (h : w.addGame bot floatText edit.seasonYear edit.game edit.names = .ok (some m)) :
    Advanced bot floatText w m.reloaded edit := by
  have hmarked {v : StatisticsWorkbook} (hplaced : Placed w v (seasonTitle edit.seasonYear))
      (hmark : v.markGame bot floatText edit.game edit.names = .ok (some m)) :
      Advanced bot floatText w m.reloaded edit := by
    have hplayers : ∀ name ∈ edit.names, name ∉ v.layout.footerTitles := by
      unfold layout
      rw [hplaced.book, hloaded.book_eq]
      exact hnames
    have hentered := entered_markGame hplaced.tidy hgame hplayers hmark
    exact hentered.advanced hplaced (fresh_of_markGame hmark) fun hplain => cached_markGame hplaced.tidy hplain hmark
  unfold addGame at h
  obtain ⟨v, hv, h⟩ := exists_of_bind h
  have hmark : v.markGame bot floatText edit.game edit.names = .ok (some m) := by
    split at h
    · exact nomatch Except.ok.inj h
    · exact h
  by_cases hseason : w.season = seasonTitle edit.seasonYear
  · rw [if_neg (not_not.mpr hseason)] at hv
    obtain rfl := Except.ok.inj hv
    exact hmarked (hseason ▸ placed_current hloaded htidy) hmark
  · rw [if_pos hseason] at hv
    obtain ⟨created, hcreated, hv⟩ := exists_of_bind hv
    cases created with
    | none => exact nomatch hv
    | some created =>
      obtain rfl := Except.ok.inj hv
      exact hmarked ((rolled_newSeason htidy hcreated).placed hloaded htitle) hmark

end Additions

end StatisticsWorkbook

end LarpBot
