import LarpBot.Application.Calls

/-!
# Shared helpers of the services

The pure helpers of `application/service_support.py`, `deadlines.py`, `navigation.py` and
`notification_helpers.py`, and the constants of one deployment (`Deployment`). The keyed hash of a
participant, the name-based identifier and `str.casefold` come from libraries; they are fields of
the deployment, and a result that needs one of them to be injective says so.
-/

namespace LarpBot

open Atomic

/-- What a running bot is configured with, and the library functions it rests on. -/
structure Deployment where
  /-- `participant_key` with the secret applied: a keyed hash of platform, number and event. -/
  participantKey : Platform → Nat → EventId → ParticipantKey
  /-- `str(uuid5(NAMESPACE_URL, name))`. -/
  uuid5 : String → String
  casefold : String → String
  /-- What `urlsplit` says against an authority with an address in brackets, or with characters beyond ASCII. -/
  authorityError : List Char → Option String := fun _ => none
  /-- The frozen runtime imports legacy workbooks; the other one never does. -/
  legacyRegistrationImports : Bool := true
  /-- The table storage keeps Google copies. -/
  mirrorsGoogleTables : Bool := false
  /-- How many event pages one scan may read before the worker's deadline. -/
  pageBudget : Nat := 1000

def Deployment.keyOf (bot : Deployment) (identity : BotIdentity) (eventId : EventId) :
    ParticipantKey :=
  bot.participantKey identity.platform identity.platformUserId eventId

/-! ## Calendar -/

/-- The calendar date of a day counted from 1 March of the year 0. -/
def civilFromDays (days : Int) : Int × Nat × Nat :=
  let era := days / 146097
  let doe := (days % 146097).toNat
  let yoe := (doe - doe / 1460 + doe / 36524 - doe / 146096) / 365
  let doy := doe - (365 * yoe + yoe / 4 - yoe / 100)
  let mp := (5 * doy + 2) / 153
  let day := doy - (153 * mp + 2) / 5 + 1
  let month := if mp < 10 then mp + 3 else mp - 9
  (yoe + era * 400 + (if month ≤ 2 then 1 else 0), month, day)

/-- The calendar date and the microsecond of the day of an instant, in a zone `offset` hours east. -/
def localTime (offset : Int) (t : Time) : (Int × Nat × Nat) × Nat :=
  let shifted := t + offset * 3600000000
  -- 719468 days lie between 1 March of the year 0 and the epoch
  (civilFromDays (shifted / 86400000000 + 719468), (shifted % 86400000000).toNat)

/-- `value.astimezone(MOSCOW_TIMEZONE).strftime("%d.%m.%y %H:%M")`. -/
def formatConfirmationDeadline (value : Time) : String :=
  let ((year, month, day), micros) := localTime 3 value
  let minutes := micros / 60000000
  s!"{twoDigits day}.{twoDigits month}.{twoDigits (year % 100).toNat} " ++
    s!"{twoDigits (minutes / 60)}:{twoDigits (minutes % 60)}"

/-- `value.astimezone(UTC).isoformat()`. -/
def utcIsoformat (value : Time) : String :=
  let ((year, month, day), micros) := localTime 0 value
  let seconds := micros / 1000000
  let fraction := toString (micros % 1000000 + 1000000)
  let tail := if micros % 1000000 = 0 then "" else "." ++ (fraction.drop 1).toString
  s!"{year}-{twoDigits month}-{twoDigits day}T{twoDigits (seconds / 3600)}:" ++
    s!"{twoDigits (seconds / 60 % 60)}:{twoDigits (seconds % 60)}{tail}+00:00"

/-! ## Game times -/

/-- The code points of the digit zero in each script, which `\d` and `int` accept. -/
def decimalZeros : List Nat :=
  [0x30, 0x660, 0x6F0, 0x7C0, 0x966, 0x9E6, 0xA66, 0xAE6, 0xB66, 0xBE6, 0xC66, 0xCE6, 0xD66, 0xDE6,
    0xE50, 0xED0, 0xF20, 0x1040, 0x1090, 0x17E0, 0x1810, 0x1946, 0x19D0, 0x1A80, 0x1A90, 0x1B50,
    0x1BB0, 0x1C40, 0x1C50, 0xA620, 0xA8D0, 0xA900, 0xA9D0, 0xA9F0, 0xAA50, 0xABF0, 0xFF10, 0x104A0,
    0x10D30, 0x11066, 0x110F0, 0x11136, 0x111D0, 0x112F0, 0x11450, 0x114D0, 0x11650, 0x116C0,
    0x11730, 0x118E0, 0x11950, 0x11C50, 0x11D50, 0x11DA0, 0x11F50, 0x16A60, 0x16AC0, 0x16B50,
    0x1D7CE, 0x1D7D8, 0x1D7E2, 0x1D7EC, 0x1D7F6, 0x1E140, 0x1E2F0, 0x1E4F0, 0x1E950, 0x1FBF0]

/-- The value of a decimal digit. -/
def digit? (c : Char) : Option Nat :=
  (decimalZeros.find? fun start => start ≤ c.toNat && c.toNat < start + 10).map (c.toNat - ·)

/-- `[01]\d|2[0-3]`. -/
def hour? (a b : Char) : Option Nat :=
  if a = '0' ∨ a = '1' then (digit? b).map fun d => (a.toNat - '0'.toNat) * 10 + d
  else if a = '2' ∧ b ∈ ['0', '1', '2', '3'] then some (20 + (b.toNat - '0'.toNat))
  else none

/-- `[0-5]\d`. -/
def minute? (a b : Char) : Option Nat :=
  if a ∈ ['0', '1', '2', '3', '4', '5'] then
    (digit? b).map fun d => (a.toNat - '0'.toNat) * 10 + d
  else none

/-- The two clock times of a match of `_GAME_TIME_PERIOD_RE` at the head of the text. -/
def periodHere : List Char → Option (Nat × Nat)
  | a :: b :: ':' :: c :: d :: '-' :: e :: f :: ':' :: g :: h :: rest => do
    let startHour ← hour? a b
    let startMinute ← minute? c d
    let endHour ← hour? e f
    let endMinute ← minute? g h
    if rest.head?.any fun next => (digit? next).isSome then none
    else some (startHour * 60 + startMinute, endHour * 60 + endMinute)
  | _ => none

/-- The first match in the text; `afterDigit` says whether a digit stands right before it. -/
def firstPeriod (afterDigit : Bool) : List Char → Option (Nat × Nat)
  | [] => none
  | c :: cs =>
    match if afterDigit then none else periodHere (c :: cs) with
    | some period => some period
    | none => firstPeriod (digit? c).isSome cs

/-- Extract a valid same-day time period from an event name as minutes. -/
def gameTimePeriod (eventName : String) : Option (Nat × Nat) :=
  (firstPeriod false eventName.toList).filter fun period => period.1 < period.2

/-- Whether same-day confirmations must remain mutually exclusive. -/
def confirmationTimesConflict (first second : Event) : Bool :=
  match gameTimePeriod first.name, gameTimePeriod second.name with
  | some (firstStart, firstEnd), some (secondStart, secondEnd) =>
    max firstStart secondStart < min firstEnd secondEnd
  | _, _ => true

/-! ## Results and snapshot entries -/

/-- What a mutation reports to the worker. -/
structure MutationResult where
  text : String
  notificationsEnabled : Bool := true
  buttons : Option (List Button) := none
  replacedEventId : Option EventId := none

def siftPromotedPrefix : String := "promoted:"
def siftDemotedPrefix : String := "demoted:"

/-- The two moves of a sift; the stored entry carries the move as its prefix. -/
inductive SiftMove
  | promoted
  | demoted
deriving DecidableEq, Repr

def SiftMove.tag : SiftMove → String
  | promoted => siftPromotedPrefix
  | demoted => siftDemotedPrefix

def siftSnapshotEntry (move : SiftMove) (participantKey : ParticipantKey) : String :=
  move.tag ++ participantKey

/-- `value.removeprefix(start)` if `value.startswith(start)`. -/
def afterPrefix (start value : String) : Option String :=
  if start.toList.isPrefixOf value.toList then
    some (String.ofList (value.toList.drop start.toList.length))
  else none

theorem afterPrefix_append {start value : String} {rest : List Char}
    (h : value.toList = start.toList ++ rest) : afterPrefix start value = some (String.ofList rest) := by
  have hprefix : start.toList.isPrefixOf value.toList = true := by
    rw [h, List.isPrefixOf_iff_prefix]
    exact List.prefix_append _ _
  rw [afterPrefix, if_pos hprefix, h, List.drop_left]

def parseSiftSnapshotEntry (value : String) : Option (SiftMove × ParticipantKey) :=
  match afterPrefix siftPromotedPrefix value with
  | some key => some (.promoted, key)
  | none => (afterPrefix siftDemotedPrefix value).map (.demoted, ·)

def cancelledConfirmedPrefix : String := "cancelled-confirmed:"
def cancelledWaitingPrefix : String := "cancelled-waiting:"
def cancellationMasterPrefix : String := "master:"

def cancellationSnapshotEntry (registration : Registration) : String :=
  (if registration.attendanceStatus = .confirmed then cancelledConfirmedPrefix
    else cancelledWaitingPrefix) ++ registration.participantKey

/-- Whether the cancelled player had confirmed, and their participant key. -/
def parseCancellationSnapshotEntry (value : String) : Option (Bool × ParticipantKey) :=
  match afterPrefix cancelledConfirmedPrefix value with
  | some key => some (true, key)
  | none => (afterPrefix cancelledWaitingPrefix value).map (false, ·)

def dailyPassTablePath (gameDate : GameDate) : String :=
  s!"disk:/larp-bot/passes/daily-{gameDate.isoformat}.xlsx"

def sameDaySignupWarning (gameDate : GameDate) : String :=
  "Важно: вы уже записаны на другую игру, которая проводится " ++
    s!"{formatGameDate gameDate}. Вы сможете подтвердить своё участие только " ++
    "в одной игре, когда решите, в какую именно хотите играть."

/-! ## Navigation -/

def mainMenu : String := "Главное меню"

def mainMenuButton : Button := ⟨"В главное меню", mainMenu⟩

def confirmationButton (eventId : EventId) : Button :=
  ⟨"✅ Подтвердить участие", s!"select:confirm:{eventId}"⟩

end LarpBot
