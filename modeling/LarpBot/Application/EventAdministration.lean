import LarpBot.Application.OrderedMutations

/-!
# Event administration

`EventAdministrationService`: `create_event`, the checks of a new game and the event that is stored
for it once its tables are there, and `refresh_event_tables`, which brings the tables of a stored
game up to date. The identifier and the links of the tables come from outside; a game that is created
without delay and one whose tables are uploaded first end in the same event. The signup token is built
from the name and the date of the game and three characters that are drawn.
-/

namespace LarpBot

open Atomic Act

/-- What a master asks for. -/
structure GameDraft where
  name : String
  gameDate : GameDate
  playerAmount : Nat
  registrationOpenAt : Option Time := none
  confirmationOpenAt : Option Time := none
  confirmationDeadline : Option Time := none
  scheduledCloseAt : Option Time := none
  question : Option RegistrationQuestion := none

/-- The step of the creation dialogue that reads the name of the game. -/
def creationName (value : String) : Except String String :=
  let cleanName := stripped value
  if cleanName = "" then .error "Название игры не может быть пустым. Введите название игры:"
  else if 200 < cleanName.length then
    .error "Название игры не должно превышать 200 символов. Введите название игры:"
  else .ok cleanName

/-! ## The signup token -/

/-- `_CYRILLIC_TRANSLITERATION`. -/
def transliteration : List (String × String) :=
  [("а", "a"), ("б", "b"), ("в", "v"), ("г", "g"), ("д", "d"), ("е", "e"), ("ё", "yo"), ("ж", "zh"),
    ("з", "z"), ("и", "i"), ("й", "y"), ("к", "k"), ("л", "l"), ("м", "m"), ("н", "n"), ("о", "o"),
    ("п", "p"), ("р", "r"), ("с", "s"), ("т", "t"), ("у", "u"), ("ф", "f"), ("х", "kh"), ("ц", "ts"),
    ("ч", "ch"), ("ш", "sh"), ("щ", "shch"), ("ъ", ""), ("ы", "y"), ("ь", ""), ("э", "e"), ("ю", "yu"),
    ("я", "ya")]

/-- `character.isupper()` of a character that folds to a letter of the table. -/
def isCyrillicCapital (c : Char) : Bool :=
  ('А' ≤ c && c ≤ 'Я') || c = 'Ё'

/-- `replacement.capitalize()` of a replacement in small letters. -/
def capitalized : List Char → List Char
  | [] => []
  | c :: cs => c.toUpper :: cs

/-- What a character of a name becomes in a token. -/
def transliterated (bot : Deployment) (c : Char) : List Char :=
  match transliteration.lookup (bot.casefold (String.singleton c)) with
  | some replacement =>
    if isCyrillicCapital c then capitalized replacement.toList else replacement.toList
  | none => if c.isAlphanum then [c] else ['_']

/-- `_START_PARAMETER_ALPHABET`, three times. -/
def isSignupSuffix (suffix : String) : Bool :=
  suffix.length = 3 && suffix.toList.all Char.isAlphanum

/-- `_MAX_START_PARAMETER_LENGTH`. -/
def maxStartParameterLength : Nat := 64

/-- `part or "game"`. -/
def orGame (part : List Char) : List Char :=
  if part.isEmpty then "game".toList else part

/-- `game_signup_token`; the suffix is given or drawn. -/
def gameSignupToken (bot : Deployment) (name : String) (gameDate : GameDate) (suffix : String) :
    Except Fault String :=
  let letters := (pythonStrip name).flatMap (transliterated bot)
  let namePart := orGame (stripChars ['_'] (replaceRuns (· = '_') ['_'] false letters))
  if !isSignupSuffix suffix then
    .error (.valueError "signup token suffix must contain three alphanumeric characters")
  else
    let date := s!"{twoDigits gameDate.day}_{twoDigits gameDate.month}_{gameDate.year}"
    let tail := s!"_{date}_{suffix}".toList
    let namePart := orGame (rstripChars ['_'] (namePart.take (maxStartParameterLength - tail.length)))
    .ok (String.ofList (namePart ++ tail))

/-- The step of the notification dialogue that reads the text of a broadcast: the text, or what is said
about it. A text is for all players, a chat link or a message for the confirmed ones. -/
def notificationText (bot : Deployment) (link allPlayers isCallback : Bool) (eventName : String)
    (gameDate : Option GameDate) (value : String) : Except String String :=
  if isCallback then .error "Отправьте содержимое обычным текстовым сообщением."
  else if value = "" then .error "Сообщение не может быть пустым."
  else if link && !isPlainChatLink bot value then
    .error "Пришлите только корректную ссылку-приглашение в чат Telegram или VK."
  else if !link && !allPlayers && isPlainChatLink bot value then
    .error "Для рассылки ссылки на чат используйте кнопку «Отправить подтвержденным ссылку на чат»."
  else
    let finalText := if allPlayers then playerNotificationText eventName value gameDate
      else confirmedNotificationText bot eventName value gameDate
    if 4000 < value.length ∨ 4000 < finalText.length then
      .error "Итоговое сообщение не должно превышать 4000 символов."
    else .ok value

/-- The links of the tables of a new game. -/
structure BundleUrls where
  master : String
  pub : String
  googleMaster : Option String := none
  googlePublic : Option String := none

namespace GameDraft

variable (draft : GameDraft)

/-- A question brings its own capacity. -/
def capacity : Nat :=
  match draft.question with
  | some question => (question.options.map AnswerOption.playerAmount).sum
  | none => draft.playerAmount

/-- One instant is given, the other is too, and they are not in order. -/
def outOfOrder (earlier later : Option Time) : Bool :=
  earlier.any fun a => later.any fun b => b ≤ a

/-- The `ValueError` of the first check that a draft fails. -/
def objection : Option String :=
  if stripped draft.name = "" then some "Название игры не может быть пустым"
  else if draft.capacity < 1 ∨ maxPlayerAmount < draft.capacity then
    some s!"Количество игроков должно быть от 1 до {maxPlayerAmount}"
  else if draft.confirmationOpenAt.isNone ≠ draft.confirmationDeadline.isNone then
    some "Открытие подтверждения и дедлайн должны быть заданы вместе"
  else if outOfOrder draft.registrationOpenAt draft.scheduledCloseAt then
    some "Регистрация должна открываться раньше закрытия игры"
  else if draft.confirmationOpenAt.isSome && draft.confirmationDeadline.isSome then
    if outOfOrder draft.confirmationOpenAt draft.confirmationDeadline then
      some "Дедлайн подтверждения должен быть позже его открытия"
    else if outOfOrder draft.registrationOpenAt draft.confirmationOpenAt then
      some "Подтверждение должно открываться после регистрации"
    else if outOfOrder draft.confirmationDeadline draft.scheduledCloseAt then
      some "Дедлайн подтверждения должен быть раньше закрытия игры"
    else none
  else none

/-- The event of a draft: open for registration, with nothing to migrate. -/
def event (bot : Deployment) (now : Time) (eventId : EventId) (urls : BundleUrls) : Event :=
  let name := stripped draft.name
  { eventId := eventId
    name := name
    gameDate := some draft.gameDate
    playerAmount := draft.capacity
    registrationQuestion := draft.question
    diskResourcePath := masterTablePath bot eventId name
    publicRegistrationUrl := urls.master
    masterTableGoogleUrl := urls.googleMaster
    publicTableResourcePath := some (publicTablePath bot eventId name)
    publicTablePublicUrl := some urls.pub
    publicTableGoogleUrl := urls.googlePublic
    passTableResourcePath := some s!"disk:/larp-bot/passes/{eventId}.xlsx"
    registrationOpenAt := draft.registrationOpenAt
    confirmationOpenAt := draft.confirmationOpenAt
    confirmationDeadline := draft.confirmationDeadline
    scheduledCloseAt := draft.scheduledCloseAt
    registrationsMigratedAt := some now
    createdAt := now
    updatedAt := now }

end GameDraft

/-- `EventRepository.create`. -/
def World.create (w : World) (event : Event) (leaders : List BotIdentity) : Except Fault World :=
  if (w.events.get event.eventId).isSome then .error (.valueError "event exists")
  else .ok { w with
    events := w.events.insertNew event
    leaders := leaders.foldl (fun stored leader => stored.insertNew (event.eventId, leader))
      (w.leaders.ofEventRemoved event.eventId) }

/-- `create_event` from its checks to the stored event. -/
def createEvent (bot : Deployment) (draft : GameDraft) (leaders : List BotIdentity) (now : Time)
    (eventId : EventId) (urls : BundleUrls) (w : World) : Except Fault World :=
  match draft.objection with
  | some text => .error (.valueError text)
  | none => w.create (draft.event bot now eventId urls) leaders

/-! ## The tables of a stored game -/

section Tables

variable (bot : Deployment)

/-- `_event` of a service that works on a stored game. -/
def storedEvent (eventId : EventId) : Act Event := do
  match ← events (.get eventId) with
  | none => eventNotFound "Игра не найдена"
  | some event => return event

def ensureEventTables (event : Event) : Act Event := do
  let event ← ensureMigrated bot event
  let event ← (
    if event.publicTableResourcePath.isSome then pure event
    else do
      let rows ← registrations (.listForEvent event.eventId)
      ensurePublicTable bot event rows)
  if event.publicTableResourcePath.isNone then
    return event
  refresh bot event

/-- `refresh_pass_table`; the Google link of the table is not kept here. -/
def refreshStoredPassTable (eventId : EventId) : Act Unit := do
  let event ← storedEvent eventId
  (match event.passTableResourcePath with
    | none => pure ()
    | some path => do
      let _ ← ensureMigrated bot event
      let profiles ← eventPassProfiles bot event none
      present "replace_pass_table" (← outside (.replacePassTable path profiles)))
  refreshDailyPassTable bot event.gameDate

def createPassTable (eventId : EventId) : Act Unit := do
  let event ← storedEvent eventId
  if event.passTableResourcePath.isSome then
    refreshStoredPassTable bot event.eventId
  else
    let _ ← ensureMigrated bot event
    let profiles ← eventPassProfiles bot event none
    let diskPath := s!"disk:/larp-bot/passes/{event.eventId}.xlsx"
    let created ← outside (.createPassTable diskPath profiles)
    match ← present "create_pass_table" created with
    | none => return ()
    | some _ =>
      if ← events (.setPassTable event.eventId diskPath) then
        return ()
      else
        present "delete_pass_table" (← outside (.deletePassTable diskPath))
        eventNotFound "Игра была удалена во время создания таблицы"

def refreshEventTables (eventId : EventId) : Act Event := do
  let event ← storedEvent eventId
  let event ← ensureEventTables bot event
  createPassTable bot event.eventId
  storedEvent event.eventId

end Tables

/-! ## Promotions from the reserve -/

/-- The answer of `can_promote_confirmed_reserve` to the active rows of a game. -/
def canPromote (event : Event) (active : List Registration) (participantKey : ParticipantKey) : Bool :=
  match active.find? (·.participantKey = participantKey) with
  | none => false
  | some selected =>
    ((mainRoster event active).any fun row =>
      row.attendanceStatus = .waiting &&
        (event.registrationQuestion.isNone || row.answerId = selected.answerId)) &&
    (sortBy Registrations.listKey (reserveRoster event active)).any fun row =>
      row.participantKey = participantKey && row.attendanceStatus = .confirmed

def canPromoteConfirmedReserve (bot : Deployment) (eventId : EventId)
    (participantKey : ParticipantKey) : Act Bool := do
  let event ← storedEvent eventId
  let _ ← ensureMigrated bot event
  let rows ← registrations (.listForEvent eventId)
  return canPromote event (sortBy Registrations.listKey (rows.filter isActive)) participantKey

end LarpBot
