import LarpBot.Application.EventAdministration

/-!
# Profile projections and statistics

The part of `RegistrationService` that carries a profile to the registrations of its owner, and
`StatisticsService`. A finished game is entered in two workbooks, and who has played is experienced
from then on, which again changes the registrations in other games. The workbooks are integrations:
`prepare` stages an edit and `commit` uploads it, and both may raise domain errors of their own.

Tasks that the source runs together are modelled one after another. A failure inside a task group
reaches the caller as an exception group, which is no domain error.
-/

namespace LarpBot

open Atomic Act

variable (bot : Deployment)

/-- `async with asyncio.TaskGroup()`: a domain error of a task is one no more. -/
def inTaskGroup {α : Type} (p : Act α) : Act α :=
  p.catching fun _ => raise (.runtimeError "ExceptionGroup")

/-! ## Profile projections -/

/-- `enqueue` of a profile projection. -/
def enqueueProfileUpdate (eventId : EventId) (identity : BotIdentity) (idempotencyKey : String) :
    Act Unit := do
  let _ ← storedEvent eventId
  let participant := bot.keyOf identity eventId
  if h : participant ≠ "" then
    let command : OrderedRegistrationCommand := {
      operationId := bot.uuid5
        s!"larp-bot:{identity.platform.value}:{identity.platformUserId}:{idempotencyKey}"
      eventId := eventId
      operation := .updateProfile
      platform := identity.platform
      platformUserId := identity.platformUserId
      participantKey := some participant
      participant_named := fun _ => h }
    present "publish" (← outside (.publish command))
  else raise (.valueError "participant_key is required")

/-- The identities of a person that take part in an event or lead it. -/
def participationFor (identities : List BotIdentity) (event : Event) :
    Act (List (EventId × BotIdentity)) := do
  let _ ← ensureMigrated bot event
  let rows ← Prog.traverse (fun (identity : BotIdentity) =>
    registrations (.get event.eventId (bot.keyOf identity event.eventId))) identities
  let leaders ← listLeaders event.eventId
  return (identities.zip rows).filterMap fun (identity, row) =>
    if row.isSome || identity ∈ leaders then some (event.eventId, identity) else none

/-- Queue a profile projection refresh for every unarchived game containing the user. -/
def enqueueProfileUpdates (platform : Platform) (userId : Nat) (idempotencyKey : String)
    (excluded : List EventId := []) : Act Nat := do
  let identities ← identitiesForLocalUser platform userId
  let queued ← scanPages (fun page => do
    let participations ← Prog.traverse (participationFor bot identities)
      (page.filter fun event => event.eventId ∉ excluded)
    let owners := participations.flatten
    Prog.forEach (fun (owner : EventId × BotIdentity) =>
      enqueueProfileUpdate bot owner.1 owner.2 s!"{idempotencyKey}:UPDATE_PROFILE:{owner.1}") owners
    return owners) bot.pageBudget none
  return queued.length

/-- What a projection writes into a registration. -/
def profileArguments (user : User) (fullName : String) : Registrations.ProfileArguments where
  displayName := surnameAndName fullName
  nickname := user.base.nickname
  larpExperience := user.base.larpExperience.getD false
  crossplay := user.base.crossplay.getD false
  vkProfile := (profileLinks user).1
  telegramProfile := (profileLinks user).2

/-- One user of `project_profiles_for_event`; the answer says whether a registration was updated. -/
def projectProfile (event : Event) (operationId : OperationId) (user : User) : Act Bool := do
  match user.base.fullName with
  | none => return false
  | some fullName =>
    if !user.profileComplete then
      return false
    let identity := user.identity
    let key := bot.keyOf identity event.eventId
    if (← registrations (.get event.eventId key)).isNone then
      return false
    let projectionId := bot.uuid5 (s!"larp-bot:{operationId}:profile-projection:" ++
      s!"{identity.platform.value}:{identity.platformUserId}:{event.eventId}")
    let _ ← registrations (.updateProfile event.eventId projectionId key
      (profileArguments user fullName))
    return true

/-- Update several registration snapshots without rebuilding tables per row. -/
def projectProfilesForEvent (eventId : EventId) (users : List User) (operationId : OperationId) :
    Act Nat := do
  let event ← storedEvent eventId
  let _ ← ensureMigrated bot event
  let projected ← Prog.traverse (projectProfile bot event operationId) users
  return (projected.filter id).length

/-! ## Statistics -/

def currentSeasonYear (now : Time) : Int :=
  let ((year, month, _), _) := localTime 3 now
  if 9 ≤ month then year else year - 1

/-- `[А-ЯЁа-яё-]`. -/
def isNameChar (c : Char) : Bool :=
  ('А' ≤ c && c ≤ 'я') || c = 'Ё' || c = 'ё' || c = '-'

/-- The name pattern of the statistics, on a stripped name: two words of such letters or more. -/
def isStatisticsName (name : String) : Bool :=
  let words := pythonSplit name
  2 ≤ words.length && words.all fun word => word.toList.all isNameChar

/-- `", ".join(names[:5])`. -/
def firstFive (names : List String) : String :=
  ", ".intercalate (names.take 5)

def validateNames (names : List String) (role : String) : Act Unit :=
  let invalid := names.filter (!isStatisticsName ·)
  rejectIf (!invalid.isEmpty)
    (s!"У {role} отсутствует корректная фамилия и имя кириллицей: " ++ firstFive invalid)

/-- A member who neither runs the chat nor has left it. -/
def ChatMember.isPlayer (member : ChatMember) : Bool :=
  member.status = "member" || (member.status = "restricted" && member.isMember)

/-- The name of a player who is in the chat, or the number of a player without a name. -/
def inspectMember (chatId : Int) (leaders : List BotIdentity) (operationId : OperationId)
    (user : TelegramUser) : Act (Option String × Option Nat) := do
  let answer ← outside (.getChatMember chatId user.tgId
    s!"{operationId}:statistics-chat-member:{user.tgId}")
  let member ← present "get_chat_member" answer
  if !member.any ChatMember.isPlayer then
    return (none, none)
  let identities ← globalIdentities (.telegram user)
  if identities.any (· ∈ leaders) then
    return (none, none)
  return match user.fullName with
    | none => (none, some user.tgId)
    | some fullName => (some (surnameAndName fullName), none)

def manualTelegramPlayers (chatId : Int) (leaders : List BotIdentity) (profiles : List User)
    (operationId : OperationId) : Act (List String) := do
  let telegramUsers := sortBy TelegramUser.tgId (profiles.filterMap fun
    | .telegram user => some user
    | .vk _ => none)
  let results ← inTaskGroup
    (Prog.traverse (inspectMember chatId leaders operationId) telegramUsers)
  let incomplete := results.filterMap Prod.snd
  rejectIf (!incomplete.isEmpty) ("У участников Telegram-чата не заполнены фамилия и имя: " ++
    firstFive (incomplete.map toString))
  return results.filterMap Prod.fst

/-- The names of the masters; each of them must have a profile with a name. -/
def masterNames (profiles : List User) (leaders : List BotIdentity) : Option (List String) :=
  leaders.mapM fun leader =>
    ((profiles.find? (·.identity = leader)).bind fun user => user.base.fullName).map surnameAndName

def grantExperience (eventId : EventId) (confirmedKeys : List ParticipantKey)
    (operationId : OperationId) : Act Unit := do
  let profiles ← users .listAll
  let experienced := profiles.filter fun user => bot.keyOf user.identity eventId ∈ confirmedKeys
  inTaskGroup (Prog.forEach (fun (user : User) => do
    users (.grantLarpExperience user.identity.platform user.identity.platformUserId)
    let _ ← enqueueProfileUpdates bot user.identity.platform user.identity.platformUserId
      s!"{operationId}:statistics-experience" [eventId]) experienced)
  let refreshed ← Prog.traverse (fun (user : User) =>
    users (.get user.identity.platform user.identity.platformUserId)) experienced
  let projected ← projectProfilesForEvent bot eventId (refreshed.filterMap id)
    s!"{operationId}:statistics-experience"
  whenever (0 < projected) do
    let _ ← refreshEventTables bot eventId

/-- The confirmed registrations, which count as attendance. -/
def confirmedRows (rows : List Registration) : List Registration :=
  rows.filter (·.attendanceStatus = .confirmed)

/-- The players and the masters of a game as `add_game` enters them, or its domain error. -/
def attendance (event : Event) (operationId : OperationId) (rows : List Registration)
    (leaders : List BotIdentity) (profiles : List User) : Act (List String × List String) := do
  let signedUp := (confirmedRows rows).map fun row => surnameAndName row.displayName
  let inChat ← (match event.telegramChatId with
    | none => pure []
    | some chatId => manualTelegramPlayers chatId leaders profiles operationId)
  let players := signedUp ++ inChat
  match masterNames profiles leaders with
  | none => domainError "Не удалось найти профили всех мастеров игры."
  | some masters =>
    validateNames players "подтвердивших игроков"
    validateNames masters "мастеров игры"
    return (players, masters)

/-- Add one unarchived game after authorization has been established. -/
def addGame (eventId : EventId) (operationId : OperationId) : Act String := do
  match ← events (.get eventId) with
  | none => domainError "Игра не найдена."
  | some event =>
    rejectIf event.archivedAt.isSome
      "Игра уже архивирована и не может быть добавлена в статистику."
    let _ ← ensureMigrated bot event
    let rows ← registrations (.listForEvent event.eventId)
    let leaders ← listLeaders event.eventId
    let profiles ← users .listAll
    let (players, masters) ← attendance event operationId rows leaders profiles
    let now ← outside .now
    let season := currentSeasonYear now
    let game := eventNameWithDate event.name event.gameDate
    -- both revisions are staged before either file is replaced
    let playerEdit ← answered (← outside (.prepareStatistics .attendance season game players))
    let masterEdit ← answered (← outside (.prepareStatistics .masters season game masters))
    let playerChanged ← answered (← outside (.commitStatistics .attendance playerEdit))
    let masterChanged ← answered (← outside (.commitStatistics .masters masterEdit))
    grantExperience bot event.eventId ((confirmedRows rows).map Registration.participantKey)
      operationId
    let reference := eventReference event.name event.gameDate
    if !playerChanged && !masterChanged then
      return s!"Игра {reference} уже есть в статистике. Таблицы не изменены."
    else
      return s!"Игра {reference} внесена в статистику сезона {season}-{season + 1}."

/-- The date of a game in which somebody plays or which they lead. -/
def activeDate (identities : List BotIdentity) (event : Event) : Act (Option GameDate) := do
  match event.gameDate with
  | none => return none
  | some gameDate =>
    let rows ← registrations (.listForEvent event.eventId)
    let leaders ← listLeaders event.eventId
    let activeKeys := (rows.filter isActive).map Registration.participantKey
    let takesPart := identities.any fun identity =>
      identity ∈ leaders || bot.keyOf identity event.eventId ∈ activeKeys
    return if takesPart then some gameDate else none

def refreshDailyPassTablesForUser (platform : Platform) (userId : Nat) : Act Unit := do
  let identities ← identitiesForLocalUser platform userId
  let unarchived ← unarchivedEvents bot
  let dates ← Prog.traverse (activeDate bot identities) unarchived
  Prog.forEach (fun gameDate => refreshDailyPassTable bot (some gameDate))
    (dates.filterMap id).eraseDups

def syncProfile (command : OrderedRegistrationCommand) : Act String :=
  match command.payload with
  | .profileSync names => do
    match ← users (.get command.platform command.platformUserId) with
    | none => return "Профиль уже отсутствует"
    | some _ =>
      let experienced ← answered (← outside (.hasAnyPlayer names))
      users (.setLarpExperience command.platform command.platformUserId experienced)
      let _ ← enqueueProfileUpdates bot command.platform command.platformUserId
        s!"{command.operationId}:SYNC_PROFILE"
      refreshDailyPassTablesForUser bot command.platform command.platformUserId
      return "Профиль синхронизирован"
  | _ => raise .assertionError

/-- `StatisticsService.apply`. -/
def applyStatistics (command : OrderedRegistrationCommand) : Act String := do
  let identities ← identitiesForLocalUser command.platform command.platformUserId
  if !(← anyAdmin identities) then
    domainError "Недостаточно прав."
  else match command.payload with
    | .statistics "link" _ =>
      let playerLink ← answered (← outside (.linkStatistics .attendance))
      let masterLink ← answered (← outside (.linkStatistics .masters))
      return "Ссылки на таблицы статистики\n\n" ++
        s!"Посещаемость игроков — player_attendance_stats.xlsx:\n{playerLink}\n\n" ++
        s!"Участие мастеров — master_statistics.xlsx:\n{masterLink}"
    | .statistics _ (some gameId) => addGame bot gameId command.operationId
    | _ => raise .assertionError

end LarpBot
