import LarpBot.Domain.Models
import LarpBot.Foundation.Records
import LarpBot.Foundation.Timestamps
import Mathlib

/-!
# Commands as queue messages

`YmqCommandPublisher.publish` sends the JSON of a command, `YmqFifoConsumer.receive` reads it back.
What the models demand of their fields, and how they normalise them, is one function for each of the
payload classes, for the values of a constructor call and for those of a JSON object alike.

The payload is an untagged union. A JSON document is a tree here; its text is left to the library. An
instant is read in the form in which it is written.
-/

namespace LarpBot

open Records

/-! ## Constraints -/

/-- `Field(min_length=least, max_length=most)`. -/
def hasLength (least most : Nat) (value : String) : Bool :=
  least ≤ value.length && value.length ≤ most

/-- A text without the characters of a kind at both ends. -/
def stripBy (p : Char → Bool) (value : String) : String :=
  String.ofList ((value.toList.dropWhile p).rdropWhile p)

/-- A field of one to `most` characters that its validator strips. -/
def strippedText (most : Nat) (value : String) : Option String :=
  let normalized := stripBy isPythonSpace value
  if hasLength 1 most value ∧ normalized ≠ "" then some normalized else none

/-- White space as the library takes it, which is not what Python takes for it. -/
def isLibrarySpace (c : Char) : Bool :=
  isPythonSpace c && c ∉ ['\x1c', '\x1d', '\x1e', '\x1f']

/-- The type `Nickname`. -/
def validNickname (value : String) : Option String :=
  let stripped := stripBy isLibrarySpace value
  if hasLength 1 100 stripped ∧ '\r' ∉ stripped.toList ∧ '\n' ∉ stripped.toList then some stripped
  else none

/-- A field with `min_length=1, max_length=16, pattern=r"^[a-z0-9-]+$"`. -/
def isOptionId (value : String) : Bool :=
  hasLength 1 16 value && value.toList.all fun c => c.isLower || c.isDigit || c = '-'

/-- A capacity between 1 and `MAX_PLAYER_AMOUNT`. -/
def isPlayerAmount (playerAmount : Int) : Bool :=
  1 ≤ playerAmount && playerAmount ≤ maxPlayerAmount

/-- What `datetime.date` can be. -/
def GameDate.Exists (date : GameDate) : Prop :=
  (1 ≤ date.year ∧ date.year ≤ 9999) ∧ (1 ≤ date.month ∧ date.month ≤ 12) ∧
    1 ≤ date.day ∧ date.day ≤ Calendar.daysInMonth (Calendar.isLeap date.year) date.month

instance (date : GameDate) : Decidable date.Exists :=
  inferInstanceAs (Decidable (_ ∧ _))

/-- `Nickname | None`. -/
def validOptionalNickname : Option String → Option (Option String)
  | none => some none
  | some nickname => (validNickname nickname).map some

def EnlistPayload.validate (payload : EnlistPayload) : Option EnlistPayload := do
  let nickname ← validOptionalNickname payload.nickname
  if hasLength 2 300 payload.displayName ∧ hasLength 1 2000 payload.wishPlay then
    some { payload with nickname := nickname }
  else none

/-- `valid_sheet_name`, behind the constraints of the fields of an option. -/
def AnswerOption.validate (casefold : String → String) (option : AnswerOption) :
    Option AnswerOption :=
  let name := stripBy isPythonSpace option.name
  if (isOptionId option.optionId ∧ hasLength 1 31 option.name ∧ isPlayerAmount option.playerAmount) ∧
      name ≠ "" ∧
      (name.toList.all fun c => c ∉ ['\\', '/', '*', '?', ':', '[', ']'] && 31 < c.toNat) ∧
      name.toList.head? ≠ some '\'' ∧ name.toList.getLast? ≠ some '\'' ∧ casefold name ≠ "history" then
    some { option with name := name }
  else none

/-- A `RegistrationQuestion` with these fields. -/
def RegistrationQuestion.build (casefold : String → String) (text : String)
    (options : List AnswerOption) : Option RegistrationQuestion := do
  let text ← strippedText 500 text
  let options ← options.mapM (AnswerOption.validate casefold)
  if h : (options.map AnswerOption.optionId).Nodup then
    if 2 ≤ options.length ∧ (options.map fun option => casefold option.name).Nodup ∧
        (options.map AnswerOption.playerAmount).sum ≤ maxPlayerAmount then
      some ⟨text, options, h⟩
    else none
  else none

/-- `ProfileSyncPayload.normalize`, behind the constraint of the field. -/
def validNames (names : List String) : Option (List String) :=
  let normalized := ((names.map (stripBy isPythonSpace)).filter (· ≠ "")).eraseDups
  if (1 ≤ names.length ∧ names.length ≤ 2) ∧ normalized ≠ [] then some normalized else none

/-- The payload that a class makes of these fields, if it takes them. A deadline has a time zone by
its type. -/
def CommandPayload.validate (casefold : String → String) : CommandPayload → Option CommandPayload
  | .enlist payload => payload.validate.map .enlist
  | .answer answerId => if isOptionId answerId then some (.answer answerId) else none
  | .question asked => (RegistrationQuestion.build casefold asked.text asked.options).map .question
  | .coPlayerWish wishPlay => (strippedText 2000 wishPlay).map .coPlayerWish
  | .characterWish payload => (strippedText 5000 payload.characterWish).map fun characterWish =>
    .characterWish { payload with characterWish := characterWish }
  | .confirmationDeadline deadline => some (.confirmationDeadline deadline)
  | .notification text => (strippedText 4000 text).map .notification
  | .eventDetails payload =>
    if payload.gameDate.Exists then
      (strippedText 200 payload.name).map fun name => .eventDetails { payload with name := name }
    else none
  | .playerAmount amount => if isPlayerAmount amount then some (.playerAmount amount) else none
  | .profileSync names => (validNames names).map .profileSync
  | .dailyPassRefresh gameDate =>
    if gameDate.Exists then some (.dailyPassRefresh gameDate) else none
  | .statistics action gameId =>
    if (action = "game" ∨ action = "link") ∧ (action = "game" → gameId.getD "" ≠ "") then
      some (.statistics action gameId)
    else none
  | .empty => some .empty

/-! ## Instants and dates -/

/-- A `datetime`: what its clock shows, in microseconds since the epoch, and how many seconds the
clock is ahead of UTC, if it says so. -/
structure Moment where
  wall : Int
  offset : Option Int
deriving DecidableEq

/-- The instant of a moment with a time zone, and what the clock shows of another one. -/
def Moment.instant (moment : Moment) : Int :=
  moment.wall - moment.offset.getD 0 * 10 ^ 6

def Moment.stamp (moment : Moment) : Calendar.Stamp :=
  Calendar.clock 6 moment.wall 0

/-- The years of a `datetime`, and the offsets of a `tzinfo`. -/
def Moment.Exists (moment : Moment) : Prop :=
  (1 ≤ moment.stamp.date.year ∧ moment.stamp.date.year ≤ 9999) ∧
    ∀ offset ∈ moment.offset, offset.natAbs < 86400

instance (moment : Moment) : Decidable moment.Exists :=
  inferInstanceAs (Decidable (_ ∧ _))

/-- The zone is written in hours and minutes. -/
def Moment.zoneText : Option Int → List Char
  | none => []
  | some 0 => Calendar.utcZone
  | some offset => Calendar.zoneText (offset.tdiv 60)

def Moment.text (moment : Moment) : String :=
  String.ofList (moment.stamp.text ++ (Calendar.fractionText
    (Calendar.fixedFraction 6 (Calendar.parts 6 moment.wall)) ++ zoneText moment.offset))

/-- What is behind the seconds of a text without a zone. -/
def readNaive (stamp : Calendar.Stamp) : List Char → Option Moment
  | [] => some ⟨stamp.seconds * 10 ^ 6, none⟩
  | '.' :: rest =>
    if rest ≠ [] ∧ rest.all Char.isDigit then
      (Calendar.fractionOf 6 rest).map fun fraction => ⟨stamp.seconds * 10 ^ 6 + (fraction : Nat), none⟩
    else none
  | _ => none

def readAware (reading : Calendar.Reading) : Option Moment :=
  (Calendar.fractionOf 6 reading.fraction).map fun fraction =>
    ⟨reading.stamp.seconds * 10 ^ 6 + (fraction : Nat), some (reading.offset * 60)⟩

def readMoment (text : String) : Option Moment :=
  (Calendar.readStamp text.toList).bind fun found =>
    if 1 ≤ found.1.date.year then
      (readNaive found.1 found.2).or ((Calendar.readRest found.1 found.2).bind readAware)
    else none

def GameDate.text (date : GameDate) : String :=
  String.ofList (Calendar.digits 4 date.year ++ '-' :: (Calendar.digits 2 date.month ++ '-' ::
    Calendar.digits 2 date.day))

def readDate (text : String) : Option GameDate := do
  let (year, rest) ← Calendar.readDigits 4 0 text.toList
  let rest ← Calendar.readChar '-' rest
  let (month, rest) ← Calendar.readDigits 2 0 rest
  let rest ← Calendar.readChar '-' rest
  let (day, rest) ← Calendar.readDigits 2 0 rest
  if rest = [] ∧ GameDate.Exists ⟨year, month, day⟩ then some ⟨year, month, day⟩ else none

/-! ## Values -/

section Values

variable {α : Type}

def readText : ContextValue → Option String
  | .text value => some value
  | _ => none

def readFlag : ContextValue → Option Bool
  | .flag value => some value
  | _ => none

def readNumber : ContextValue → Option Int
  | .number value => some value
  | _ => none

/-- A number that is at least zero. -/
def readNatural (value : ContextValue) : Option Nat := do
  let number ← readNumber value
  if 0 ≤ number then some number.toNat else none

def readList (read : ContextValue → Option α) : ContextValue → Option (List α)
  | .list values => values.mapM read
  | _ => none

def readNullable (read : ContextValue → Option α) : ContextValue → Option (Option α)
  | .null => some none
  | value => (read value).map some

def nullable (write : α → ContextValue) : Option α → ContextValue
  | none => .null
  | some value => write value

/-- A JSON object. -/
abbrev Fields := List (String × ContextValue)

/-- A field without a default. -/
def Fields.required (record : Fields) (name : String) (read : ContextValue → Option α) : Option α :=
  (field? name record).bind read

/-- A field with a default. -/
def Fields.optional (record : Fields) (name : String) (read : ContextValue → Option α) (default : α) :
    Option α :=
  match field? name record with
  | none => some default
  | some value => read value

/-- An object of a class that takes no other names. -/
def readRecord (shape : Shape) (read : Fields → Option α) : ContextValue → Option α
  | .record record => if shape.Admits (names record) then read record else none
  | _ => none

end Values

/-! ## Payloads -/

section Payloads

variable (casefold : String → String)

def AnswerOption.write (option : AnswerOption) : ContextValue :=
  .record [("option_id", .text option.optionId), ("name", .text option.name),
    ("player_amount", .number option.playerAmount)]

def readAnswerOption : ContextValue → Option AnswerOption :=
  readRecord ⟨["option_id", "name", "player_amount"], ["option_id", "name", "player_amount"]⟩
    fun record => do
      let optionId ← record.required "option_id" readText
      let name ← record.required "name" readText
      let playerAmount ← record.required "player_amount" readNatural
      return ⟨optionId, name, playerAmount⟩

def RegistrationQuestion.write (question : RegistrationQuestion) : ContextValue :=
  .record [("text", .text question.text),
    ("options", .list (question.options.map AnswerOption.write))]

def readQuestion : ContextValue → Option RegistrationQuestion :=
  readRecord ⟨["text", "options"], ["text", "options"]⟩ fun record => do
    let text ← record.required "text" readText
    let options ← record.required "options" (readList readAnswerOption)
    RegistrationQuestion.build casefold text options

/-- The object of a payload. The deadline is told on a clock that is so many seconds ahead. -/
def CommandPayload.write (zone : Int) : CommandPayload → Fields
  | .enlist payload => [("answer_id", nullable .text payload.answerId),
    ("display_name", .text payload.displayName), ("nickname", nullable .text payload.nickname),
    ("wish_play", .text payload.wishPlay),
    ("larp_experience", nullable .flag payload.larpExperience),
    ("crossplay", nullable .flag payload.crossplay), ("vk_profile", .text payload.vkProfile),
    ("telegram_profile", nullable .text payload.telegramProfile),
    ("same_day_warning_shown", .flag payload.sameDayWarningShown)]
  | .answer answerId => [("answer_id", .text answerId)]
  | .question asked => [("question", asked.write)]
  | .coPlayerWish wishPlay => [("wish_play", .text wishPlay)]
  | .characterWish payload => [("character_wish", .text payload.characterWish),
    ("replaced_event_id", nullable .text payload.replacedEventId)]
  | .confirmationDeadline deadline =>
    [("deadline", .text (Moment.text ⟨deadline + zone * 10 ^ 6, some zone⟩))]
  | .notification text => [("text", .text text)]
  | .eventDetails payload => [("name", .text payload.name), ("game_date", .text payload.gameDate.text)]
  | .playerAmount amount => [("player_amount", .number amount)]
  | .profileSync names => [("names", .list (names.map .text))]
  | .dailyPassRefresh gameDate => [("game_date", .text gameDate.text)]
  | .statistics action gameId => [("action", .text action), ("game_id", nullable .text gameId)]
  | .empty => []

/-- The classes of the union, in its order. -/
inductive PayloadClass
  | enlist
  | answer
  | question
  | coPlayerWish
  | characterWish
  | confirmationDeadline
  | notification
  | eventDetails
  | playerAmount
  | profileSync
  | dailyPassRefresh
  | statistics
  | empty
deriving DecidableEq, Repr

namespace PayloadClass

def all : List PayloadClass :=
  [enlist, answer, question, coPlayerWish, characterWish, confirmationDeadline, notification,
    eventDetails, playerAmount, profileSync, dailyPassRefresh, statistics, empty]

def shape : PayloadClass → Shape
  | enlist => ⟨["answer_id", "display_name", "nickname", "wish_play", "larp_experience", "crossplay",
    "vk_profile", "telegram_profile", "same_day_warning_shown"], ["display_name", "wish_play"]⟩
  | answer => ⟨["answer_id"], ["answer_id"]⟩
  | question => ⟨["question"], ["question"]⟩
  | coPlayerWish => ⟨["wish_play"], ["wish_play"]⟩
  | characterWish => ⟨["character_wish", "replaced_event_id"], ["character_wish"]⟩
  | confirmationDeadline => ⟨["deadline"], ["deadline"]⟩
  | notification => ⟨["text"], ["text"]⟩
  | eventDetails => ⟨["name", "game_date"], ["name", "game_date"]⟩
  | playerAmount => ⟨["player_amount"], ["player_amount"]⟩
  | profileSync => ⟨["names"], ["names"]⟩
  | dailyPassRefresh => ⟨["game_date"], ["game_date"]⟩
  | statistics => ⟨["action", "game_id"], ["action"]⟩
  | empty => ⟨[], []⟩

/-- The values of an object, before the constraints of its class. -/
def values (record : Fields) : PayloadClass → Option CommandPayload
  | enlist => do
    let answerId ← record.optional "answer_id" (readNullable readText) none
    let displayName ← record.required "display_name" readText
    let nickname ← record.optional "nickname" (readNullable readText) none
    let wishPlay ← record.required "wish_play" readText
    let larpExperience ← record.optional "larp_experience" (readNullable readFlag) none
    let crossplay ← record.optional "crossplay" (readNullable readFlag) none
    let vkProfile ← record.optional "vk_profile" readText ""
    let telegramProfile ← record.optional "telegram_profile" (readNullable readText) none
    let sameDayWarningShown ← record.optional "same_day_warning_shown" readFlag false
    return .enlist ⟨answerId, displayName, nickname, wishPlay, larpExperience, crossplay, vkProfile,
      telegramProfile, sameDayWarningShown⟩
  | answer => return .answer (← record.required "answer_id" readText)
  | question => return .question (← record.required "question" (readQuestion casefold))
  | coPlayerWish => return .coPlayerWish (← record.required "wish_play" readText)
  | characterWish => do
    let characterWish ← record.required "character_wish" readText
    let replacedEventId ← record.optional "replaced_event_id" (readNullable readText) none
    return .characterWish ⟨characterWish, replacedEventId⟩
  | confirmationDeadline => do
    let deadline ← record.required "deadline" fun value => (readText value).bind readMoment
    if deadline.offset.isSome then return .confirmationDeadline deadline.instant else none
  | notification => return .notification (← record.required "text" readText)
  | eventDetails => do
    let name ← record.required "name" readText
    let gameDate ← record.required "game_date" fun value => (readText value).bind readDate
    return .eventDetails ⟨name, gameDate⟩
  | playerAmount => return .playerAmount (← record.required "player_amount" readNatural)
  | profileSync => return .profileSync (← record.required "names" (readList readText))
  | dailyPassRefresh => do
    let gameDate ← record.required "game_date" fun value => (readText value).bind readDate
    return .dailyPassRefresh gameDate
  | statistics => do
    let action ← record.required "action" readText
    let gameId ← record.optional "game_id" (readNullable readText) none
    return .statistics action gameId
  | empty => return .empty

/-- An object as a payload of a class. -/
def read (payloadClass : PayloadClass) (record : Fields) : Option CommandPayload :=
  (payloadClass.values casefold record).bind (CommandPayload.validate casefold)

end PayloadClass

end Payloads

/-! ## Commands -/

def Operation.value : Operation → String
  | statistics => "STATISTICS"
  | syncProfile => "SYNC_PROFILE"
  | refreshDailyPassTable => "REFRESH_DAILY_PASS_TABLE"
  | refreshEventTables => "REFRESH_EVENT_TABLES"
  | enlist => "ENLIST"
  | updateProfile => "UPDATE_PROFILE"
  | confirm => "CONFIRM"
  | updateCharacterWish => "UPDATE_CHARACTER_WISH"
  | updateCoPlayerWish => "UPDATE_CO_PLAYER_WISH"
  | updateAnswer => "UPDATE_ANSWER"
  | updateQuestion => "UPDATE_QUESTION"
  | cancel => "CANCEL"
  | openRegistration => "OPEN_REGISTRATION"
  | openConfirmation => "OPEN_CONFIRMATION"
  | scheduledOpenConfirmation => "SCHEDULED_OPEN_CONFIRMATION"
  | sendConfirmationReminder => "SEND_CONFIRMATION_REMINDER"
  | sendConfirmedNotification => "SEND_CONFIRMED_NOTIFICATION"
  | sendAllPlayersNotification => "SEND_ALL_PLAYERS_NOTIFICATION"
  | updateEventDetails => "UPDATE_EVENT_DETAILS"
  | updatePlayerAmount => "UPDATE_PLAYER_AMOUNT"
  | removeParticipant => "REMOVE_PARTICIPANT"
  | removeWaitingParticipants => "REMOVE_WAITING_PARTICIPANTS"
  | promoteReserveParticipant => "PROMOTE_RESERVE_PARTICIPANT"
  | closeEvent => "CLOSE_EVENT"
  | archiveEvent => "ARCHIVE_EVENT"
  | scheduledCloseEvent => "SCHEDULED_CLOSE_EVENT"
  | scheduledCloseStatistics => "SCHEDULED_CLOSE_STATISTICS"
  | scheduledCloseFinalize => "SCHEDULED_CLOSE_FINALIZE"
  | unarchiveEvent => "UNARCHIVE_EVENT"
  | deleteEvent => "DELETE_EVENT"

def Operation.all : List Operation :=
  [statistics, syncProfile, refreshDailyPassTable, refreshEventTables, enlist,
    updateProfile, confirm, updateCharacterWish, updateCoPlayerWish, updateAnswer,
    updateQuestion, cancel, openRegistration, openConfirmation, scheduledOpenConfirmation,
    sendConfirmationReminder, sendConfirmedNotification, sendAllPlayersNotification,
    updateEventDetails, updatePlayerAmount, removeParticipant, removeWaitingParticipants,
    promoteReserveParticipant, closeEvent, archiveEvent, scheduledCloseEvent,
    scheduledCloseStatistics, scheduledCloseFinalize, unarchiveEvent, deleteEvent]

def readOperation (value : ContextValue) : Option Operation :=
  (readText value).bind fun text => Operation.all.find? fun operation => operation.value = text

def readPlatform (value : ContextValue) : Option Platform :=
  (readText value).bind fun text =>
    [Platform.telegram, .vk, .system].find? fun platform => platform.value = text

def Button.write (button : Button) : ContextValue :=
  .record [("label", .text button.label), ("value", .text button.value)]

def readButton : ContextValue → Option Button :=
  readRecord ⟨["label", "value"], ["label", "value"]⟩ fun record => do
    let label ← record.required "label" readText
    let value ← record.required "value" readText
    return ⟨label, value⟩

def ReplyContext.write (context : ReplyContext) : ContextValue :=
  .record [("chat_id", nullable .number context.chatId), ("peer_id", nullable .number context.peerId),
    ("text_success", .text context.textSuccess), ("text_failure", .text context.textFailure),
    ("buttons", .list (context.buttons.map Button.write))]

def readReplyContext : ContextValue → Option ReplyContext :=
  readRecord ⟨["chat_id", "peer_id", "text_success", "text_failure", "buttons"], []⟩ fun record => do
    let chatId ← record.optional "chat_id" (readNullable readNumber) none
    let peerId ← record.optional "peer_id" (readNullable readNumber) none
    let textSuccess ← record.optional "text_success" readText ""
    let textFailure ← record.optional "text_failure" readText ""
    let buttons ← record.optional "buttons" (readList readButton) []
    return ⟨chatId, peerId, textSuccess, textFailure, buttons⟩

def commandShape : Shape where
  fields := ["schema_version", "operation_id", "event_id", "operation", "platform",
    "platform_user_id", "participant_key", "identity_group", "payload", "reply_context", "created_at"]
  required := ["operation_id", "event_id", "operation", "platform", "platform_user_id"]

section Commands

variable (casefold : String → String)

/-- The union of the payload classes. -/
def readPayload : ContextValue → Option CommandPayload
  | .record record => readUnion PayloadClass.shape (PayloadClass.read casefold) PayloadClass.all record
  | _ => none

/-- A field that passes a test. -/
def checked {α : Type} (test : α → Bool) (value : α) : Option α :=
  if test value then some value else none

namespace OrderedRegistrationCommand

section Shape

variable {operation : Operation} {eventId : EventId} {platform : Platform} {platformUserId : Nat}
  {participantKey : Option ParticipantKey} {payload : CommandPayload}

theorem payload_of_shape (h : payloadFits operation payload = true ∧
      (operation.isParticipantOperation = true → participantKey.getD "" ≠ "") ∧
      groupFits operation eventId platform platformUserId payload = true) :
    payloadFits operation payload = true :=
  h.1

theorem participant_of_shape (h : payloadFits operation payload = true ∧
      (operation.isParticipantOperation = true → participantKey.getD "" ≠ "") ∧
      groupFits operation eventId platform platformUserId payload = true) :
    operation.isParticipantOperation = true → participantKey.getD "" ≠ "" :=
  h.2.1

theorem group_of_shape (h : payloadFits operation payload = true ∧
      (operation.isParticipantOperation = true → participantKey.getD "" ≠ "") ∧
      groupFits operation eventId platform platformUserId payload = true) :
    groupFits operation eventId platform platformUserId payload = true :=
  h.2.2

end Shape

/-- `validate_shape`. -/
def build (operationId : OperationId) (eventId : EventId) (operation : Operation)
    (platform : Platform) (platformUserId : Nat) (participantKey : Option ParticipantKey)
    (identityGroup : Option String) (payload : CommandPayload) (replyContext : ReplyContext) :
    Option OrderedRegistrationCommand :=
  if h : payloadFits operation payload = true ∧
      (operation.isParticipantOperation = true → participantKey.getD "" ≠ "") ∧
      groupFits operation eventId platform platformUserId payload = true then
    some
      { operationId := operationId
        eventId := eventId
        operation := operation
        platform := platform
        platformUserId := platformUserId
        participantKey := participantKey
        identityGroup := identityGroup
        payload := payload
        replyContext := replyContext
        payload_fits := payload_of_shape h
        participant_named := participant_of_shape h
        group_fits := group_of_shape h }
  else none

/-- What a command is besides its types and what `validate_shape` says. -/
structure Valid (command : OrderedRegistrationCommand) : Prop where
  operationId : hasLength 32 36 command.operationId
  identityGroup : ∀ group ∈ command.identityGroup, hasLength 1 160 group
  payload : ∃ given, CommandPayload.validate casefold given = some command.payload

/-- `command.model_dump_json()`. -/
def write (command : OrderedRegistrationCommand) (zone : Int) (createdAt : Moment) : ContextValue :=
  .record [("schema_version", .number 1), ("operation_id", .text command.operationId),
    ("event_id", .text command.eventId), ("operation", .text command.operation.value),
    ("platform", .text command.platform.value), ("platform_user_id", .number command.platformUserId),
    ("participant_key", nullable .text command.participantKey),
    ("identity_group", nullable .text command.identityGroup),
    ("payload", .record (command.payload.write zone)), ("reply_context", command.replyContext.write),
    ("created_at", .text createdAt.text)]

/-- `OrderedRegistrationCommand.model_validate_json`, at a time. -/
def read (now : Moment) : ContextValue → Option (OrderedRegistrationCommand × Moment) :=
  readRecord commandShape fun record => do
    let _ ← record.optional "schema_version" (fun value => (readNumber value).bind (checked (· = 1))) 1
    let operationId ← record.required "operation_id" fun value =>
      (readText value).bind (checked (hasLength 32 36))
    let eventId ← record.required "event_id" readText
    let operation ← record.required "operation" readOperation
    let platform ← record.required "platform" readPlatform
    let platformUserId ← record.required "platform_user_id" readNatural
    let participantKey ← record.optional "participant_key" (readNullable readText) none
    let identityGroup ← record.optional "identity_group"
      (readNullable fun value => (readText value).bind (checked (hasLength 1 160))) none
    let payload ← record.optional "payload" (readPayload casefold) .empty
    let replyContext ← record.optional "reply_context" readReplyContext {}
    let createdAt ← record.optional "created_at" (fun value => (readText value).bind readMoment) now
    let command ← build operationId eventId operation platform platformUserId participantKey
      identityGroup payload replyContext
    return (command, createdAt)

end OrderedRegistrationCommand

/-! ## Messages -/

structure QueueMessage where
  body : ContextValue
  messageGroupId : String
  messageDeduplicationId : String

/-- What `publish` sends. -/
def OrderedRegistrationCommand.message (command : OrderedRegistrationCommand) (zone : Int)
    (createdAt : Moment) : QueueMessage where
  body := command.write zone createdAt
  messageGroupId := command.queueGroupId
  messageDeduplicationId := command.operationId

/-- What `receive` makes of a message. -/
def QueueMessage.command (message : QueueMessage) (now : Moment) :
    Option (OrderedRegistrationCommand × Moment) :=
  OrderedRegistrationCommand.read casefold now message.body

end Commands

end LarpBot
