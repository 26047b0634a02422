import LarpBot.Adapters.MemoryRegistrations
import LarpBot.Domain.RegistrationQueues
import LarpBot.Foundation.Components
import LarpBot.Foundation.Records

/-!
# The workbooks of a game

What `showcase_workbook_bytes` and `public_showcase_workbook_bytes` put into the sheets of the master
and of the public workbook. Each option of the question has a sheet, and a game without a question has
one; a sheet is filled from the top, row after row.

The colours in which the names are filled are told apart from the sheets, as what
`_player_component_colors` answers. Fonts and widths are left out. So is the name of a sheet, beyond the text
that it is created with: the validator of an option admits names that a sheet can have.
-/

namespace LarpBot

open Atomic

def AttendanceStatus.value : AttendanceStatus → String
  | waiting => "Ожидается"
  | confirmed => "Подтверждено"
  | cancelled => "Отменено"

/-! ## Sheets -/

inductive Cell
  | number (n : Nat)
  | text (value : String)
deriving DecidableEq, Repr

/-- The rows of a sheet from the first one to the last one that has a cell, each up to its last cell,
and the rows that are merged from their first column on, with the number of columns. -/
structure Sheet where
  title : String
  rows : List (List Cell) := []
  merged : List (Nat × Nat) := []
deriving DecidableEq, Repr

namespace Sheet

/-- `sheet.append(cells)`. -/
def append (cells : List Cell) (sheet : Sheet) : Sheet :=
  { sheet with rows := sheet.rows ++ [cells] }

/-- `sheet.merge_cells` of the first columns of a row. -/
def mergeRow (row columnCount : Nat) (sheet : Sheet) : Sheet :=
  { sheet with merged := sheet.merged ++ [(row, columnCount)] }

/-- `sheet.cell(row, 1, value)`; the rows are counted from one. -/
def setFirst (row : Nat) (value : Cell) (sheet : Sheet) : Sheet :=
  let rows := sheet.rows ++ List.replicate (row - sheet.rows.length) []
  { sheet with rows := rows.modify (row - 1) fun cells => value :: cells.drop 1 }

/-- `_append_reserve_separator`. -/
def appendReserveSeparator (playerAmount columnCount : Nat) (sheet : Sheet) : Except Fault Sheet :=
  if 1 ≤ playerAmount ∧ playerAmount ≤ maxPlayerAmount then
    let reserveRow := playerAmount + 2
    .ok ((sheet.mergeRow reserveRow columnCount).setFirst reserveRow (.text "ЗАПАС"))
  else .error (.valueError s!"player_amount must be between 1 and {maxPlayerAmount}")

/-- Append the rows of registrations that are numbered from `number` on. -/
def appendEach (rowCells : Nat → Registration → Except Fault (List Cell)) :
    Nat → List Registration → Sheet → Except Fault Sheet
  | _, [], sheet => .ok sheet
  | number, registration :: rest, sheet => do
    let cells ← rowCells number registration
    (sheet.append cells).appendEach rowCells (number + 1) rest

/-- `for number in range(start, stop): sheet.append((number,))`. -/
def appendNumbers (start stop : Nat) (sheet : Sheet) : Sheet :=
  (List.range' start (stop - start)).foldl (fun sheet number => sheet.append [.number number]) sheet

end Sheet

/-- The loop body of both workbooks: the sheet of a group. -/
def groupSheet (headers : List String) (rowCells : Nat → Registration → Except Fault (List Cell))
    (title : String) (playerAmount : Nat) (ordered : List Registration) : Except Fault Sheet := do
  let sheet := ({ title := title } : Sheet).append (headers.map .text)
  let sheet ← sheet.appendEach rowCells 1 (ordered.take playerAmount)
  let sheet := sheet.appendNumbers (ordered.length + 1) (playerAmount + 1)
  let sheet ← sheet.appendReserveSeparator playerAmount headers.length
  sheet.appendEach rowCells (playerAmount + 1) (ordered.drop playerAmount)

/-- `_ordered_active_registrations`. -/
def orderedActiveRegistrations (registrations : List Registration) : List Registration :=
  sortBy queueKey (registrations.filter isActive)

/-- What goes into a sheet: its title, the size of its main roster and its people. -/
structure SheetGroup where
  title : String
  playerAmount : Nat
  ordered : List Registration

def sheetGroups (registrations : List Registration) (playerAmount : Nat)
    (question : Option RegistrationQuestion) : List SheetGroup :=
  let allRows := orderedActiveRegistrations registrations
  match question with
  | some question => question.options.map fun option =>
    ⟨option.name, option.playerAmount,
      allRows.filter fun row => row.answerId = some option.optionId⟩
  | none => [⟨"Регистрация", playerAmount, allRows⟩]

/-! ## Cells -/

/-- `safe_cell`. -/
def safeCell (value : String) : String :=
  match value.toList with
  | c :: _ => if c ∈ ['=', '+', '-', '@'] then "'" ++ value else value
  | [] => value

/-- The characters that `re.IGNORECASE` takes for a lower-case letter or another character. -/
def matchesLetter (letter c : Char) : Bool :=
  c = letter || c = letter.toUpper || (letter = 's' && c = '\u017f') ||
    (letter = 'i' && c ∈ ['\u0130', '\u0131'])

/-- `[a-z0-9-]` under `re.IGNORECASE`. -/
def isCallbackCharacter (c : Char) : Bool :=
  c.isAlphanum || c ∈ ['-', '\u0130', '\u0131', '\u017f', '\u212a']

def startsWithLetters : List Char → List Char → Option (List Char)
  | [], value => some value
  | _ :: _, [] => none
  | letter :: letters, c :: value =>
    if matchesLetter letter c then startsWithLetters letters value else none

/-- `CHARACTER_WISH_CALLBACK_RE.search`: more than eight characters do not make the search fail. -/
def hasCallback : List Char → Bool
  | [] => false
  | c :: value =>
    (match startsWithLetters "select:confirm:".toList (c :: value) with
    | some rest => 8 ≤ (rest.takeWhile isCallbackCharacter).length
    | none => false) || hasCallback value

/-- `character_wish_cell`. -/
def characterWishCell (value : String) : String :=
  if hasCallback value.toList then "" else safeCell value

/-- `_bool_cell`. -/
def boolCell : Option Bool → Cell
  | none => .text "Не указано"
  | some value => .text (if value then "Да" else "Нет")

/-- `_registration_table_name`. -/
def registrationTableName (value : String) : String :=
  " ".intercalate ((pythonSplit value).take 2).reverse

def visibleHeaders : List String :=
  ["№", "Имя", "Профиль ВКонтакте", "Профиль в Telegram", "Предыдущий опыт в LARP",
    "Готовность к кроссполу", "С кем хочу играть", "Пожелания по персонажу", "Текущий статус",
    "Нужен ли пропуск"]

def publicHeaders : List String :=
  ["№", "Имя", "Готовность к кроссполу", "С кем хочу играть", "Пожелания по персонажу",
    "Текущий статус"]

/-! ## Workbooks -/

section Workbooks

/- The cell that the workbook library makes of a text: it refuses control characters. -/
variable (cellOf : String → Except Fault Cell)

/-- The row of the master workbook. -/
def masterCells (needsPassByKey : List (ParticipantKey × Option Bool)) (number : Nat)
    (registration : Registration) : Except Fault (List Cell) := do
  let name ← cellOf (safeCell (registrationTableName registration.displayName))
  let vkProfile ← cellOf (safeCell registration.vkProfile)
  let telegramProfile ← cellOf (safeCell (registration.telegramProfile.getD ""))
  let wishPlay ← cellOf (safeCell registration.wishPlay)
  let characterWish ← cellOf (characterWishCell registration.characterWish)
  return [.number number, name, vkProfile, telegramProfile, boolCell registration.larpExperience,
    boolCell registration.crossplay, wishPlay, characterWish,
    .text registration.attendanceStatus.value,
    boolCell (needsPassByKey.lookup registration.participantKey).join]

/-- `registration.nickname or _registration_table_name(registration.display_name)`. -/
def publicName (registration : Registration) : String :=
  match registration.nickname with
  | none | some "" => registrationTableName registration.displayName
  | some nickname => nickname

/-- The row of the public workbook. -/
def publicCells (number : Nat) (registration : Registration) : Except Fault (List Cell) := do
  let name ← cellOf (safeCell (publicName registration))
  let wishPlay ← cellOf (safeCell registration.wishPlay)
  let characterWish ← cellOf (characterWishCell registration.characterWish)
  return [.number number, name, boolCell registration.crossplay, wishPlay, characterWish,
    .text registration.attendanceStatus.value]

/-- The sheets of `showcase_workbook_bytes`. -/
def showcaseWorkbook (registrations : List Registration)
    (needsPassByKey : List (ParticipantKey × Option Bool)) (playerAmount : Nat)
    (question : Option RegistrationQuestion) : Except Fault (List Sheet) :=
  (sheetGroups registrations playerAmount question).mapM fun group =>
    groupSheet visibleHeaders (masterCells cellOf needsPassByKey) group.title group.playerAmount
      group.ordered

/-- The sheets of `public_showcase_workbook_bytes`. -/
def publicShowcaseWorkbook (registrations : List Registration) (playerAmount : Nat)
    (question : Option RegistrationQuestion) : Except Fault (List Sheet) :=
  (sheetGroups registrations playerAmount question).mapM fun group =>
    groupSheet publicHeaders (publicCells cellOf) group.title group.playerAmount group.ordered

end Workbooks

/-! ## Colours -/

/-- `TABLEAU_10_COLORS`. -/
def tableau10Colors : List String :=
  ["4E79A7", "F28E2B", "E15759", "76B7B2", "59A14F", "EDC948", "B07AA1", "FF9DA7", "9C755F", "BAB0AC"]

section Colors

variable (casefold : String → String)

/-- `_co_player_words`, in the order of the text. -/
def coPlayerWords (value : String) : List String :=
  pythonSplit (String.ofList ((casefold value).toList.map fun c => if c = ',' then ' ' else c))

/-- The wish of the first one has the name or a part of the nickname of the second one. -/
def mentions (first second : Registration) : Bool :=
  let name := coPlayerWords casefold (surnameAndName second.displayName)
  let nickname := coPlayerWords casefold (second.nickname.getD "")
  let wish := coPlayerWords casefold first.wishPlay
  (name ≠ [] && name.all (· ∈ wish)) || nickname.any (· ∈ wish)

/-- The set `adjacency[index]`, in the order of the rows; the order in which the search takes the
members of a set does not show in what it finds. -/
def wishAdjacency (registrations : List Registration) (index : Nat) : List Nat :=
  match registrations[index]? with
  | none => []
  | some registration => (List.range registrations.length).filter fun other =>
    other ≠ index && registrations[other]?.any fun second =>
      mentions casefold registration second || mentions casefold second registration

/-- The key of `components.sort`. -/
def componentRank (component : List Nat) : Int ×ₗ Nat :=
  toLex (-(component.length : Int), component.min?.getD 0)

/-- `_player_component_colors`: the colours by participant keys, in the order in which they are set. -/
def playerComponentColors (registrations : List Registration) : List (ParticipantKey × String) :=
  let components := Components.components (wishAdjacency casefold registrations) registrations.length
  ((sortBy componentRank components).zip tableau10Colors).flatMap fun colored =>
    colored.1.filterMap fun index =>
      registrations[index]?.map fun registration => (registration.participantKey, colored.2)

/-- `component_colors.get(registration.participant_key)` -/
def rowColor (registrations : List Registration) (index : Fin registrations.length) : Option String :=
  Records.field? registrations[index].participantKey (playerComponentColors casefold registrations)

end Colors

end LarpBot
