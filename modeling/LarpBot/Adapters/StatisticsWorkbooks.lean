import LarpBot.Application.Calls
import LarpBot.Application.ProfileFields
import LarpBot.Foundation.Ranking
import LarpBot.Foundation.Worksheets
import Mathlib

/-!
# The statistics workbooks

`StatisticsWorkbook` and `MasterStatisticsWorkbook`: a workbook with one sheet for each season, of which
the latest one is revised. A sheet has a row for each player, with the number of games before the season,
the flags for the awards and one column for each game of the season, and below the players a footer with
sums. The two classes differ in their columns, in the footer and in whether a name is found with its
two parts exchanged.

The archive is taken as its sheets, and a sheet as the grid that `value` reads and `set_cell` writes. What
only concerns the looks of a sheet is left out: styles, conditional formats, column widths and the stored
dimension. A number is exact here and a float in the source; `floatText` is `str` of it.
-/

namespace LarpBot

open Atomic Worksheets

/-- The class attributes of a workbook. -/
structure WorkbookLayout where
  requiredHeaders : List (Nat × String)
  fixedColumn : Nat
  gameColumn : Nat
  carriedColumn : Nat := 3
  totalColumn : Nat
  awardColumn : Nat
  footerTitles : List String
  layoutError : String
  matchReversedNames : Bool

/-- `StatisticsWorkbook` and `MasterStatisticsWorkbook`. -/
def StatisticsBook.layout : StatisticsBook → WorkbookLayout
  | .attendance => {
    requiredHeaders := [(1, "Игрок"), (4, "5 игр"), (13, "50 игр")]
    fixedColumn := 13
    gameColumn := 14
    totalColumn := 2
    awardColumn := 4
    footerTitles := ["Всего", "Участники сезона", "Новички", "Активные игроки сезона"]
    layoutError := "Нужна XLSX-таблица с сезонным листом, колонками Игрок, итоги и 5–50 игр."
    matchReversedNames := true }
  | .masters => {
    requiredHeaders := [(1, "Мастер"), (2, "Участие в сезоне"), (3, "Игр на начало сезона"),
      (4, "Игр на текущий момент"), (5, "1 игра"), (6, "5 игр"), (12, "35 игр")]
    fixedColumn := 12
    gameColumn := 13
    totalColumn := 4
    awardColumn := 5
    footerTitles := ["Всего", "Участники сезона", "Новички"]
    layoutError :=
      "Нужна XLSX-таблица мастеров с сезонным листом, итогами, отметками 1–35 игр и колонками игр."
    matchReversedNames := false }

def StatisticsBook.carriedHeader (year : Int) : StatisticsBook → String
  | .attendance => s!"Игр на 01.09.{year}"
  | .masters => "Игр на начало сезона"

/-- The sheets of an archive, by their names. -/
abbrev Sheets := Table (Prod.fst : String × Grid ℚ → String)

/-- A workbook in memory: `path` is the sheet that `save` writes. -/
structure StatisticsWorkbook where
  book : StatisticsBook
  sheets : Sheets
  season : String
  path : String
  sheet : Grid ℚ
  lastColumn : Nat
  lastPlayer : Nat

/-! ## Values -/

/-- What `value` answers of a cell that has one. -/
inductive CellValue
  | number (value : ℚ)
  | text (value : String)
  | flag (value : Bool)
deriving DecidableEq, Repr

def readContent : Content ℚ → Option CellValue
  | .blank => none
  | .number value => some (.number value)
  | .text value => some (.text value)
  | .flag value => some (.flag value)
  | .fault code => some (.text code)

/-- `StatisticsWorkbook.value`. -/
def cellValue (sheet : Grid ℚ) (place : Place) : Option CellValue :=
  readContent (sheet.entry place).content

/-- `value not in (None, "")`. -/
def isFilled (value : Option CellValue) : Bool :=
  value ≠ none && value ≠ some (.text "")

/-- `str(value)`. -/
def pythonText (floatText : ℚ → String) : Option CellValue → String
  | none => "None"
  | some (.number value) => floatText value
  | some (.text value) => value
  | some (.flag value) => if value then "True" else "False"

/-- `str(value or "")`. -/
def pythonTextOrEmpty (floatText : ℚ → String) : Option CellValue → String
  | none | some (.number 0) | some (.flag false) => ""
  | value => pythonText floatText value

/-! ## Names -/

/-- `normalized_name`. -/
def normalizedName (casefold : String → String) (value : String) : String :=
  (casefold (" ".intercalate (pythonSplit value))).map fun c => if c = 'ё' then 'е' else c

def reversedName (bot : Deployment) (value : String) : Option String :=
  match parseFullName value .cyrillic with
  | some (surname, name, none) => some (normalizedName bot.casefold s!"{name} {surname}")
  | _ => none

/-! ## Loading -/

/-- `re.fullmatch(r"20\d\d-20\d\d", name)`. -/
def isSeasonName (name : String) : Bool :=
  match name.toList with
  | ['2', '0', a, b, '-', '2', '0', c, d] => [a, b, c, d].all fun c => (digit? c).isSome
  | _ => false

/-- `max(seasons, key=lambda s: s.attrib["name"])`. -/
def latestSeason (sheets : Sheets) : Option (String × Grid ℚ) :=
  ((sheets.rows.map Prod.fst).filter isSeasonName).max?.bind sheets.find?

namespace StatisticsBook

variable (book : StatisticsBook) (sheet : Grid ℚ)

def hasHeaders : Bool :=
  book.layout.requiredHeaders.all fun header => cellValue sheet (1, header.1) = some (.text header.2)

/-- Whether the loop over the rows goes on behind a row. -/
def isPlayerRow (row : Nat) : Bool :=
  (match cellValue sheet (row, 1) with
  | some (.text name) => name ∉ book.layout.footerTitles
  | _ => false) && (sheet.entry (row, 1)).formula.isNone

end StatisticsBook

/-- The last column that has a header. -/
def lastHeader (sheet : Grid ℚ) : Nat :=
  ((sheet.cells.rows.filter fun cell => cell.1.1 = 1 && isFilled (readContent cell.2.content)).map
    fun cell => cell.1.2).foldr max 0

/-- The last row before the first one that is no player's. -/
def lastPlayerRow (book : StatisticsBook) (sheet : Grid ℚ) : Nat :=
  (((sortBy id (sheet.rows.filter (· ≠ 1))).takeWhile (book.isPlayerRow sheet)).getLast?).getD 1

/-- Whether a row has anything in it. -/
def isPopulated (sheet : Grid ℚ) (row : Nat) : Bool :=
  sheet.cells.rows.any fun cell =>
    cell.1.1 = row && (isFilled (readContent cell.2.content) || cell.2.formula.isSome)

/-- Below the players nothing but a footer: its titles, or a total as an export leaves it. -/
def footerAdmitted (book : StatisticsBook) (sheet : Grid ℚ) (lastPlayer : Nat) : Bool :=
  sheet.rows.all fun row =>
    let named := match cellValue sheet (row, 1) with
      | some (.text name) => name ∈ book.layout.footerTitles
      | _ => false
    let exportedTotal := row = lastPlayer + 1 && (sheet.entry (row, 1)).formula.isSome
    row ≤ lastPlayer || !isPopulated sheet row ||
      (row ≤ lastPlayer + book.layout.footerTitles.length && (named || exportedTotal))

def refused {α : Type} (text : String) : Except Failure α :=
  .error (.domain ⟨.plain, text⟩)

/-- `StatisticsWorkbook.__init__`. -/
def StatisticsBook.load (book : StatisticsBook) (sheets : Sheets) : Except Failure StatisticsWorkbook :=
  match latestSeason sheets with
  | none => refused book.layout.layoutError
  | some (season, sheet) =>
    let lastPlayer := lastPlayerRow book sheet
    if book.hasHeaders sheet && footerAdmitted book sheet lastPlayer then
      .ok {
        book := book
        sheets := sheets
        season := season
        path := season
        sheet := sheet
        lastColumn := lastHeader sheet
        lastPlayer := lastPlayer }
    else refused book.layout.layoutError

namespace StatisticsWorkbook

/-! ## Reading -/

section Reading

variable (w : StatisticsWorkbook)

def layout : WorkbookLayout := w.book.layout

/-- `range(2, self.last_player + 1)`. -/
def playerRows : List Nat := List.range' 2 (w.lastPlayer - 1)

/-- `range(self.game_column, self.last_column + 1)`. -/
def gameColumns : List Nat := List.range' w.layout.gameColumn (w.lastColumn + 1 - w.layout.gameColumn)

/-- The number in a cell; under a `SUM` a text that is no error counts as nothing. -/
def number (place : Place) (sumCell : Bool := false) : Except Failure ℚ :=
  match w.sheet.entry place with
  | ⟨.number value, _⟩ => .ok value
  | ⟨.flag value, _⟩ => .ok (if value then 1 else 0)
  | ⟨content, formula⟩ =>
    if sumCell && content matches .text _ then .ok 0
    else if !isFilled (readContent content) && formula.isNone then .ok 0
    else refused s!"Нет числового результата в {w.season}!{place.text}. Пересчитайте XLSX."

def total (row : Nat) : Except Failure ℚ := do
  let carried ← w.number (row, w.layout.carriedColumn)
  let games ← w.gameColumns.mapM fun column => w.number (row, column) true
  return carried + games.sum

/-- Whether a game has its column. -/
def hasGame (bot : Deployment) (floatText : ℚ → String) (name : String) : Bool :=
  w.gameColumns.any fun column =>
    normalizedName bot.casefold (pythonTextOrEmpty floatText (cellValue w.sheet (1, column))) =
      normalizedName bot.casefold name

def hasAnyPlayer (bot : Deployment) (floatText : ℚ → String) (names : List String) : Bool :=
  let candidates := names.map (normalizedName bot.casefold)
  w.playerRows.any fun row =>
    let tableName := pythonTextOrEmpty floatText (cellValue w.sheet (row, 1))
    normalizedName bot.casefold tableName ∈ candidates ||
      (w.layout.matchReversedNames && (reversedName bot tableName).any (· ∈ candidates))

end Reading

/-! ## Writing -/

/-- `set_cell`. -/
def setCell (place : Place) (content : Content ℚ) (formula : Option String := none)
    (w : StatisticsWorkbook) : StatisticsWorkbook :=
  { w with sheet := w.sheet.put place ⟨content, formula⟩ }

/-- `set_cell` with a number and the formula that it comes from. -/
def setResult (place : Place) (value : ℚ) (formula : Formula) (w : StatisticsWorkbook) :
    StatisticsWorkbook :=
  w.setCell place (.number value) (some formula.text)

/-- `set_cell` for several columns of a row, each with what is read before it is written. -/
def setResults (place : Nat → Place) (formula : Nat → Formula)
    (value : StatisticsWorkbook → Nat → Except Failure ℚ) :
    List Nat → StatisticsWorkbook → Except Failure StatisticsWorkbook
  | [], w => .ok w
  | column :: columns, w => do
    let result ← value w column
    (w.setResult (place column) result (formula column)).setResults place formula value columns

/-- The first row of the footer. -/
def summary (w : StatisticsWorkbook) : Nat := w.lastPlayer + 1

/-- `prepare_footer`: the cells of the footer are blank. -/
def prepareFooter (w : StatisticsWorkbook) : StatisticsWorkbook :=
  let blanks := (List.range w.layout.footerTitles.length).flatMap fun offset =>
    (List.range' 1 w.lastColumn).map fun column => ((w.summary + offset, column), ({} : Entry ℚ))
  { w with sheet := w.sheet.write blanks }

def writeTitles (w : StatisticsWorkbook) : StatisticsWorkbook :=
  let titles := w.layout.footerTitles.zipIdx.map fun (title, offset) =>
    ((w.summary + offset, 1), ({ content := .text title } : Entry ℚ))
  { w with sheet := w.sheet.write titles }

/-- `C5+SUM(N5:P5)`, or `C5` in a season without games. -/
def totalFormula (w : StatisticsWorkbook) (row : Nat) : Formula :=
  let carried := Formula.ref (row, w.layout.carriedColumn)
  if w.layout.gameColumn ≤ w.lastColumn then
    .add carried (.sum (.row row w.layout.gameColumn w.lastColumn))
  else carried

/-- The cells of the players in one column. -/
def playerCells (w : StatisticsWorkbook) (column : Nat) : Range :=
  .column column 2 w.lastPlayer

/-- The numbers of the players in one column. -/
def playerNumbers (w : StatisticsWorkbook) (column : Nat) (sumCell : Bool := false) :
    Except Failure (List ℚ) :=
  w.playerRows.mapM fun row => w.number (row, column) sumCell

/-- How many players came to each game. -/
def writeAttendance (w : StatisticsWorkbook) : Except Failure StatisticsWorkbook :=
  w.setResults (fun column => (w.summary, column)) (fun column => .sum (w.playerCells column))
    (fun w column => do return (← w.playerNumbers column true).sum) w.gameColumns

/-! ### The workbook of the players -/

def writeTotals (totals : List ℚ) (w : StatisticsWorkbook) : StatisticsWorkbook :=
  (w.playerRows.zip totals).foldl
    (fun w (row, total) => w.setResult (row, w.layout.totalColumn) total (w.totalFormula row)) w

/-- How many players have a total, and how many have one from before the season. -/
def writePositive (w : StatisticsWorkbook) : Except Failure StatisticsWorkbook :=
  w.setResults (fun column => (w.summary, column)) (fun column => .countIf (w.playerCells column) .above 0)
    (fun w column => do return ((← w.playerNumbers column).countP (0 < ·) : Nat)) [2, 3]

/-- How many players came to more games of the season than a threshold. -/
def writeAbove (totals : List ℚ) (offset threshold : Nat) (w : StatisticsWorkbook) :
    Except Failure StatisticsWorkbook := do
  let carried ← w.playerNumbers 3
  let count := (totals.zip carried).countP fun (total, carried) => carried + threshold < total
  return w.setResult (w.summary + offset, 2) (count : Nat)
    (.countAbove (w.playerCells 2) (w.playerCells 3) threshold)

def writeDifference (w : StatisticsWorkbook) : Except Failure StatisticsWorkbook := do
  let difference := (← w.number (w.summary, 2)) - (← w.number (w.summary, 3))
  return w.setResult (w.summary + 2, 2) difference (.sub (.ref (w.summary, 2)) (.ref (w.summary, 3)))

/-- `StatisticsWorkbook.refresh`. -/
def refreshAttendance (w : StatisticsWorkbook) : Except Failure StatisticsWorkbook := do
  let totals ← w.playerRows.mapM w.total
  let w ← (w.writeTotals totals).prepareFooter.writeTitles.writePositive
  let w ← w.writeAttendance
  let w ← w.writeAbove totals 1 0
  let w ← w.writeAbove totals 3 3
  w.writeDifference

/-! ### The workbook of the masters -/

def writeMaster (row : Nat) (total seasonTotal : ℚ) (w : StatisticsWorkbook) : StatisticsWorkbook :=
  (w.setResult (row, 2) seasonTotal (.sub (.ref (row, 4)) (.ref (row, 3)))).setResult (row, 4) total
    (w.totalFormula row)

/-- The loop over the masters, with the games of each in the season. -/
def writeSeasonTotals : List (Nat × ℚ) → StatisticsWorkbook → Except Failure (StatisticsWorkbook × List ℚ)
  | [], w => .ok (w, [])
  | (row, total) :: rest, w => do
    let seasonTotal := total - (← w.number (row, 3))
    let (w, seasonTotals) ← (w.writeMaster row total seasonTotal).writeSeasonTotals rest
    return (w, seasonTotal :: seasonTotals)

def writeNewMasters (w : StatisticsWorkbook) : Except Failure StatisticsWorkbook := do
  let count := (← w.playerNumbers 3).countP (· = 0)
  return w.setResult (w.summary + 2, 2) (count : Nat) (.countIf (w.playerCells 3) .equal 0)

/-- `MasterStatisticsWorkbook.refresh`. -/
def refreshMasters (w : StatisticsWorkbook) : Except Failure StatisticsWorkbook := do
  let totals ← w.playerRows.mapM w.total
  let (w, seasonTotals) ← w.writeSeasonTotals (w.playerRows.zip totals)
  let w := w.prepareFooter.writeTitles
  let w ← (w.setResult (w.summary, 2) totals.length (.countIf (w.playerCells 2) .atLeast 0)).writeAttendance
  let w := w.setResult (w.summary + 1, 2) (seasonTotals.countP (0 < ·) : Nat)
    (.countIf (w.playerCells 2) .above 0)
  w.writeNewMasters

def refresh (w : StatisticsWorkbook) : Except Failure StatisticsWorkbook :=
  match w.book with
  | .attendance => w.refreshAttendance
  | .masters => w.refreshMasters

/-- The archive that `save` writes. -/
def save (w : StatisticsWorkbook) : StatisticsWorkbook :=
  { w with sheets := w.sheets.modify w.path fun sheet => (sheet.1, w.sheet) }

/-! ## Seasons -/

/-- `title = f"{year}-{year + 1}"`. -/
def seasonTitle (year : Int) : String := s!"{year}-{year + 1}"

/-- The fixed columns of the players, each with the total as what is carried over. -/
def carryOver (year : Int) (totals : List ℚ) (w : StatisticsWorkbook) : StatisticsWorkbook :=
  let fixed := (w.sheet.upTo w.lastPlayer).keepCells fun place => place.2 ≤ w.layout.fixedColumn
  let headed := fixed.put (1, w.layout.carriedColumn) { content := .text (w.book.carriedHeader year) }
  let carried := (w.playerRows.zip totals).map fun (row, total) =>
    ((row, w.layout.carriedColumn), ({ content := .number total } : Entry ℚ))
  { w with sheet := headed.write carried, lastColumn := w.layout.fixedColumn }

/-- `new_season`; `none` where the season is there. The sheets of earlier seasons stay as they are in
the archive. -/
def newSeason (year : Int) (w : StatisticsWorkbook) : Except Failure (Option StatisticsWorkbook) :=
  let title := seasonTitle year
  if h : title ∈ w.sheets.rows.map Prod.fst then .ok none
  else if title < w.season then refused "В таблице уже есть более поздний сезон."
  else do
    let totals ← w.playerRows.mapM w.total
    let w' := w.carryOver year totals
    let opened : StatisticsWorkbook := { w' with
      path := title
      sheets := ⟨(title, w'.sheet) :: w.sheets.rows, List.nodup_cons.mpr ⟨h, w.sheets.nodup⟩⟩ }
    return some (← opened.refresh).save

/-! ## Games -/

section Games

variable (bot : Deployment) (floatText : ℚ → String)

/-- The rows under a key. -/
def rowsUnder (key : String) (lookup : List (String × Nat)) : List Nat :=
  (lookup.filter fun entry => entry.1 = key).map Prod.snd

/-- The name of a player, as `mark_game` looks it up. -/
def playerName (w : StatisticsWorkbook) (row : Nat) : String :=
  pythonText floatText (cellValue w.sheet (row, 1))

def lookupNames (w : StatisticsWorkbook) : List (String × Nat) :=
  w.playerRows.map fun row => (normalizedName bot.casefold (w.playerName floatText row), row)

def lookupReversed (w : StatisticsWorkbook) : List (String × Nat) :=
  if w.layout.matchReversedNames then
    w.playerRows.filterMap fun row =>
      (reversedName bot (w.playerName floatText row)).map fun key => (key, row)
  else []

/-- `new_player_value`. -/
def newPlayerValue (layout : WorkbookLayout) (column : Nat) (name : String) : Content ℚ :=
  if column = 1 then .text name
  else if layout.awardColumn ≤ column then .flag false
  else .number 0

/-- The row of a new player. -/
def addPlayer (player : String) (w : StatisticsWorkbook) : StatisticsWorkbook :=
  let row := w.lastPlayer + 1
  let cells := (List.range' 1 w.layout.fixedColumn).map fun column =>
    ((row, column), ({ content := newPlayerValue w.layout column player } : Entry ℚ))
  { w with sheet := w.sheet.write cells, lastPlayer := row }

/-- The mark of the game in the last column. -/
def markRows (rows : List Nat) (w : StatisticsWorkbook) : StatisticsWorkbook :=
  rows.foldl (fun w row => w.setCell (row, w.lastColumn) (.number 1)) w

/-- One participant of `mark_game`. -/
def markPlayer (reversed : List (String × Nat)) (lookup : List (String × Nat)) (player : String)
    (w : StatisticsWorkbook) : StatisticsWorkbook × List (String × Nat) :=
  let key := normalizedName bot.casefold player
  let rows := rowsUnder key lookup
  let reversedRows := rowsUnder key reversed
  if rows ≠ [] then (w.markRows rows, lookup)
  else if reversedRows ≠ [] then (w.markRows reversedRows, lookup)
  else
    let added := w.addPlayer player
    (added.markRows [added.lastPlayer], lookup ++ [(key, added.lastPlayer)])

def markPlayers (reversed : List (String × Nat)) :
    List (String × Nat) → List String → StatisticsWorkbook → StatisticsWorkbook
  | _, [], w => w
  | lookup, player :: players, w =>
    let (w, lookup) := w.markPlayer bot reversed lookup player
    w.markPlayers reversed lookup players

/-- The column of a new game, with the footer taken away. -/
def openGame (name : String) (w : StatisticsWorkbook) : StatisticsWorkbook :=
  let headed := { w with lastColumn := w.lastColumn + 1 }.setCell (1, w.lastColumn + 1) (.text name)
  { headed with sheet := headed.sheet.upTo w.lastPlayer }

/-- `mark_game`; `none` where the game is there. -/
def markGame (name : String) (players : List String) (w : StatisticsWorkbook) :
    Except Failure (Option StatisticsWorkbook) :=
  if w.hasGame bot floatText name then .ok none
  else do
    let marked := (w.openGame name).markPlayers bot (w.lookupReversed bot floatText)
      (w.lookupNames bot floatText) players
    return some (← marked.refresh).save

/-- Add a game to the requested season, creating that season when needed. -/
def addGame (seasonYear : Int) (name : String) (players : List String) (w : StatisticsWorkbook) :
    Except Failure (Option StatisticsWorkbook) := do
  let w ← (if w.season ≠ seasonTitle seasonYear then do
      match ← w.newSeason seasonYear with
      | none => refused "Текущий сезон не является последним листом таблицы."
      | some created => return created
    else return w)
  if w.hasGame bot floatText name then return none
  else w.markGame bot floatText name players

end Games

end StatisticsWorkbook

/-! ## The files -/

section Files

variable (bot : Deployment) (floatText : ℚ → String)

/-- `prepare` with `add_game`: the revised archive, or `none` where nothing is to be replaced. -/
def prepareStatistics (book : StatisticsBook) (file : Sheets) (seasonYear : Int) (game : String)
    (names : List String) : Except Failure (Option Sheets) := do
  let w ← book.load file
  let edit ← w.addGame bot floatText seasonYear game names
  return edit.map StatisticsWorkbook.sheets

/-- `commit`: the file after it, and whether it was replaced. -/
def commitStatistics (file : Sheets) : Option Sheets → Sheets × Bool
  | none => (file, false)
  | some content => (content, true)

/-- What `add_game` is called with. -/
structure StatisticsEdit where
  seasonYear : Int
  game : String
  names : List String
deriving DecidableEq, Repr

/-- `edit`. -/
def editStatistics (book : StatisticsBook) (file : Sheets) (edit : StatisticsEdit) :
    Except Failure (Sheets × Bool) := do
  let prepared ← prepareStatistics bot floatText book file edit.seasonYear edit.game edit.names
  return commitStatistics file prepared

/-- The file after an edit: one that fails has replaced nothing. -/
def afterEdit (book : StatisticsBook) (file : Sheets) (edit : StatisticsEdit) : Sheets :=
  match editStatistics bot floatText book file edit with
  | .ok (file, _) => file
  | .error _ => file

def afterEdits (book : StatisticsBook) (file : Sheets) (edits : List StatisticsEdit) : Sheets :=
  edits.foldl (afterEdit bot floatText book) file

/-- `has_any_player` of the repository. -/
def statisticsHaveAnyPlayer (book : StatisticsBook) (file : Sheets) (names : List String) :
    Except Failure Bool := do
  return (← book.load file).hasAnyPlayer bot floatText names

end Files

end LarpBot
