import LarpBot.Application.RegistrationServices

/-!
# Ordered mutations

`OrderedMutationService`: the worker-time validation of a command, its write, and the refresh of the
tables that follows. `apply` is one method with a branch for each operation; here a branch is a
definition of its own under the operation's name, and `apply` is the dispatch with the checks that
several branches share, in the order of the source.

The service is modelled as both runtimes build it: with the user repository, the participant secret
and the admin list.
-/

namespace LarpBot

open Atomic Act

variable (bot : Deployment)

/-! ## Authorization and actors -/

/-- Whether the admin list holds one of the identities. Each of them is asked. -/
def anyAdmin (identities : List BotIdentity) : Act Bool := do
  let answers ← Prog.traverse (fun (identity : BotIdentity) => do
    present "is_admin" (← outside (.isAdmin identity.platform identity.platformUserId))) identities
  return answers.any id

def requireEventLeader (command : OrderedRegistrationCommand) : Act Unit := do
  let identities ← identitiesForLocalUser command.platform command.platformUserId
  let leaders ← listLeaders command.eventId
  if identities.any (· ∈ leaders) then
    return ()
  if ← anyAdmin identities then
    return ()
  notAllowed "Только мастера этой игры и администраторы бота могут изменять её данные"

def requireAdmin (command : OrderedRegistrationCommand) : Act Unit := do
  let identities ← identitiesForLocalUser command.platform command.platformUserId
  if ← anyAdmin identities then
    return ()
  notAllowed "Только администраторы бота могут изменять архив игр"

def actorRegistrations (event : Event) (command : OrderedRegistrationCommand) :
    Act (List BotIdentity × List Registration) := do
  let identities ← identitiesForLocalUser command.platform command.platformUserId
  let found ← registrationsOf bot event identities
  return (identities, found)

/-! ## Pass tables -/

def refreshDailyPassTable (gameDate : Option GameDate) : Act Unit := do
  match gameDate with
  | none => return ()
  | some gameDate =>
    let diskPath := dailyPassTablePath gameDate
    let exists_ ← present "pass_table_exists" (← outside (.passTableExists diskPath))
    whenever exists_ do
      let (_, profiles) ← dailyPassProfiles bot gameDate
      present "replace_pass_table" (← outside (.replacePassTable diskPath profiles))

def refreshEventPassTable (event : Event) (registrationRows : Option (List Registration)) :
    Act Unit := do
  match event.passTableResourcePath with
  | none => return ()
  | some path =>
    let profiles ← eventPassProfiles bot event registrationRows
    present "replace_pass_table" (← outside (.replacePassTable path profiles))

def refreshPassTable (event : Event) (registrationRows : Option (List Registration)) :
    Act Unit := do
  refreshEventPassTable bot event registrationRows
  refreshDailyPassTable bot event.gameDate

/-! ## Promotions from the reserve -/

/-- The first reserve row of a queue whose place is freed when an active main row leaves. -/
def promotedRow (capacity : Nat) (registration : Option Registration)
    (active : List Registration) : Option Registration :=
  match registration.filter isActive with
  | none => none
  | some registration =>
    match active.findIdx? (·.participantKey = registration.participantKey) with
    | none => none
    | some targetIndex =>
      if targetIndex < capacity ∧ capacity < active.length then active[capacity]? else none

def recordReservePromotion (event : Event) (command : OrderedRegistrationCommand) (capacity : Nat)
    (registration : Option Registration) (active : List Registration) : Act Unit := do
  if event.lastReservePromotionOperationId = some command.operationId then
    return ()
  value (← events (.setReservePromotion event.eventId command.operationId
    ((promotedRow capacity registration active).map Registration.participantKey)))

def recordConfirmedLinkPromotion (event : Event) (command : OrderedRegistrationCommand)
    (capacity : Nat) (registration : Option Registration) (active : List Registration) :
    Act Unit := do
  if event.lastConfirmedLinkPromotionOperationId = some command.operationId then
    return ()
  let promoted := (promotedRow capacity registration active).filter
    (·.attendanceStatus = .confirmed)
  value (← events (.setConfirmedLinkPromotion event.eventId command.operationId
    (promoted.map Registration.participantKey)))

/-- The queue of a registration and its capacity: the answer's own when the game has a question. -/
def promotionQueue (event : Event) (registration : Option Registration)
    (active : List Registration) : Except Fault (List Registration × Nat) :=
  match registration, event.registrationQuestion with
  | some registration, some _ =>
    match answerCapacity event registration.answerId with
    | none => .error .missingAnswer
    | some capacity => .ok (activeQueue active registration.answerId, capacity)
  | _, _ => .ok (active, event.playerAmount)

def recordPromotions (event : Event) (command : OrderedRegistrationCommand)
    (registration : Option Registration) : Act Unit := do
  let active ← (
    if registration.any isActive &&
        (event.lastReservePromotionOperationId ≠ some command.operationId ||
          event.lastConfirmedLinkPromotionOperationId ≠ some command.operationId) then do
      let rows ← registrations (.listForEvent event.eventId)
      pure (activeQueue rows)
    else pure [])
  let (active, capacity) ← value (promotionQueue event registration active)
  recordReservePromotion event command capacity registration active
  recordConfirmedLinkPromotion event command capacity registration active

/-- Load a game's masters with their bot profiles, ordered by name. -/
def eventMasterRecords (eventId : EventId) : Act (List (BotIdentity × Option User)) := do
  let identities ← listLeaders eventId
  let profiles ← Prog.traverse (fun (identity : BotIdentity) =>
    users (.get identity.platform identity.platformUserId)) identities
  let name (profile : Option User) : String :=
    (profile.bind fun user => user.base.fullName).getD ""
  return sortBy (fun record => toLex (bot.casefold (name record.2),
    toLex (record.1.platform.value, record.1.platformUserId))) (identities.zip profiles)

/-! ## Event operations -/

def scheduledOpenConfirmation (command : OrderedRegistrationCommand) (event : Event)
    (deadline : Time) : Act MutationResult := do
  if command.platform ≠ .system then
    notAllowed "Запланированное открытие подтверждения выполняется только таймером"
  else match event.confirmationOpenAt with
    | some opensAt =>
      if event.archivedAt.isSome || event.status ≠ .created || event.confirmationDeadline.isNone then
        return ⟨"Запланированное открытие подтверждения уже отменено или выполнено", false, none, none⟩
      let expectedId := bot.uuid5
        s!"larp-bot:scheduled-confirmation:{event.eventId}:{utcIsoformat opensAt}"
      if command.operationId ≠ expectedId || event.confirmationDeadline ≠ some deadline then
        return ⟨"Расписание открытия подтверждения было изменено", false, none, none⟩
      if ← events (.openScheduledConfirmation event.eventId opensAt deadline) then
        return ⟨"Установлен Статус «Подтверждение» по расписанию", true, none, none⟩
      else
        return ⟨"Расписание открытия подтверждения было изменено", false, none, none⟩
    | none =>
      return ⟨"Запланированное открытие подтверждения уже отменено или выполнено", false, none, none⟩

def unarchiveEvent (command : OrderedRegistrationCommand) (event : Event) : Act MutationResult := do
  requireAdmin command
  if event.archivedAt.isNone then
    refreshDailyPassTable bot event.gameDate
    return { text := "Игра уже разархивирована" }
  let now ← outside .now
  let _ ← events (.unarchive event.eventId now)
  refreshDailyPassTable bot event.gameDate
  return { text := "Игра разархивирована; регистрация остаётся закрытой" }

def deleteEvent (command : OrderedRegistrationCommand) (event : Event) : Act MutationResult := do
  requireAdmin command
  refuseIf event.archivedAt.isNone "Удалить можно только архивированную игру"
  catalogDelete event
  return { text := "Игра, записи и XLSX-таблицы удалены" }

/-- What is left to do for a command on an archived game. -/
def applyToArchived (command : OrderedRegistrationCommand) (event : Event) :
    Act MutationResult :=
  match command.operation with
  | .archiveEvent => do
    refreshDailyPassTable bot event.gameDate
    return { text := "Игра уже архивирована" }
  | .enlist | .confirm | .updateCharacterWish | .updateCoPlayerWish | .updateAnswer | .cancel =>
    notAllowed "Игра больше не активна; запись и изменение данных недоступны."
  | _ => notAllowed "Игра уже архивирована"

def openConfirmation (event : Event) (deadline : Time) : Act MutationResult := do
  let statusChanged := event.status ≠ .confirmationOpen
  let _ ← events (.openConfirmation event.eventId deadline)
  return { text := "Установлен Статус «Подтверждение»", notificationsEnabled := statusChanged }

def sendConfirmationReminder (event : Event) : Act MutationResult := do
  refuseIf (event.status ≠ .confirmationOpen) "Подтверждение участия для этой игры не открыто"
  refuseIf event.confirmationDeadline.isNone "Для игры не задан дедлайн подтверждения"
  return { text := "Напоминание о подтверждении отправлено" }

def sendConfirmedNotification (command : OrderedRegistrationCommand) (event : Event)
    (text : String) : Act MutationResult := do
  let _ ← events (.appendConfirmedNotification event.eventId text command.operationId)
  return { text := "Уведомление подтвердившим участие отправлено" }

/-- The calendar date of an instant in Moscow is not after a game date. -/
def closesBy (closesAt : Time) (gameDate : GameDate) : Bool :=
  let ((year, month, day), _) := localTime 3 closesAt
  toLex (year, toLex (month, day)) ≤
    toLex ((gameDate.year : Int), toLex (gameDate.month, gameDate.day))

def updateEventDetails (event : Event) (payload : EventDetailsPayload) : Act MutationResult := do
  refuseIf (event.scheduledCloseAt.any (closesBy · payload.gameDate))
    "Новая дата игры должна быть раньше запланированного автоматического закрытия"
  let _ ← events (.setDetails event.eventId payload.name payload.gameDate)
  refreshDailyPassTable bot event.gameDate
  whenever (some payload.gameDate ≠ event.gameDate) do
    refreshDailyPassTable bot (some payload.gameDate)
  return { text := "Название и дата игры изменены: " ++
    eventReference payload.name (some payload.gameDate) }

def updateQuestion (event : Event) (question : RegistrationQuestion) : Act MutationResult := do
  match event.registrationQuestion with
  | none => notAllowed "В этой игре нет дополнительного вопроса"
  | some current =>
    let shape (q : RegistrationQuestion) := q.options.map fun o => (o.optionId, o.playerAmount)
    refuseIf (shape current ≠ shape question)
      "Можно изменить только текст вопроса и названия ответов"
    value (← events (.setRegistrationQuestion event.eventId question))
    let _ ← refresh bot { event with registrationQuestion := some question }
    return { text := "Дополнительный вопрос и названия ответов обновлены" }

/-- The rows that a larger capacity takes in. -/
def capacityPromotions (event : Event) (playerAmount : Nat) (rows : List Registration) :
    List ParticipantKey :=
  (((activeQueue rows).take playerAmount).drop event.playerAmount).map
    Registration.participantKey

def updatePlayerAmount (command : OrderedRegistrationCommand) (event : Event)
    (playerAmount : Nat) : Act MutationResult := do
  refuseIf event.registrationQuestion.isSome
    "Для этой игры лимиты мест заданы отдельно для ответов"
  let event ← ensureMigrated bot event
  whenever (event.lastParticipantRemovalOperationId ≠ some command.operationId) do
    let promotedKeys ← (
      if event.playerAmount < playerAmount then do
        let rows ← registrations (.listForEvent event.eventId)
        pure (capacityPromotions event playerAmount rows)
      else pure [])
    value (← events (.setParticipantRemoval event.eventId command.operationId promotedKeys))
  let _ ← events (.setPlayerAmount event.eventId playerAmount)
  let _ ← refresh bot { event with playerAmount := playerAmount }
  return { text := s!"Количество игроков изменено: {playerAmount}" }

def setStatus (event : Event) (status : EventStatus) (message : String) : Act MutationResult := do
  let statusChanged ← events (.setStatus event.eventId status)
  return { text := message, notificationsEnabled := statusChanged }

def archiveEvent (event : Event) : Act MutationResult := do
  catalogArchive event
  refreshDailyPassTable bot event.gameDate
  return { text := "Игра архивирована; таблицы и записи сохранены" }
/-! ## The confirmation sift -/

/-- The order of a confirmation sift: the confirmed rows first, each group in queue order. -/
def siftKey (row : Registration) : Bool ×ₗ (Time ×ₗ ParticipantKey) :=
  toLex (decide (row.attendanceStatus ≠ .confirmed), queueKey row)

/-- The main roster that the sifted order of the active rows has. -/
def siftedMain (event : Event) (reordered : List Registration) : List Registration :=
  match event.registrationQuestion with
  | none => reordered.take event.playerAmount
  | some question =>
    question.options.flatMap fun option =>
      (reordered.filter (·.answerId = some option.optionId)).take option.playerAmount

/-- The entries for the rows that enter and the rows that leave the main roster. -/
def siftMoves (event : Event) (active : List Registration) : List String :=
  let reordered := sortBy siftKey active
  let beforeMain := (mainRoster event active).map Registration.participantKey
  let afterMain := (siftedMain event reordered).map Registration.participantKey
  let entering := reordered.filter fun row =>
    row.participantKey ∈ afterMain && row.participantKey ∉ beforeMain
  let leaving := active.filter fun row =>
    row.participantKey ∈ beforeMain && row.participantKey ∉ afterMain
  entering.map (siftSnapshotEntry .promoted ·.participantKey) ++
    leaving.map (siftSnapshotEntry .demoted ·.participantKey)

/-- Whether the sift would move a row. -/
def siftChanges (active : List Registration) : Bool :=
  active.map Registration.participantKey ≠
    (sortBy siftKey active).map Registration.participantKey

/-- Save moves for the notifications: added to those of an earlier attempt, or instead of those of
an earlier command. -/
def recordMoves (command : OrderedRegistrationCommand) (event : Event) (moves : List String) :
    Act Unit := do
  if event.lastParticipantRemovalOperationId = some command.operationId then
    value (← events (.addParticipantRemovalKeys event.eventId command.operationId moves))
  else
    value (← events (.setParticipantRemoval event.eventId command.operationId moves))

def siftWaiting (command : OrderedRegistrationCommand) (event : Event) (active : List Registration) :
    Act Unit := do
  if siftChanges active then
    -- the moves are saved before they are made, so that notifications survive a retry
    recordMoves command event (siftMoves event active)
    value (← registrations (.siftWaitingToEnd event.eventId))
  else
    whenever (event.lastParticipantRemovalOperationId ≠ some command.operationId) do
      value (← events (.setParticipantRemoval event.eventId command.operationId []))

def removeWaitingParticipants (command : OrderedRegistrationCommand) (event : Event) :
    Act MutationResult := do
  let rows ← registrations (.listForEvent event.eventId)
  siftWaiting command event (activeQueue rows)
  let (event, rows) ← refreshWithRows bot event
  let stored ← events (.get event.eventId)
  let entries := (currentSiftEntries ((stored.map Event.participantRemovalKeys).getD [])
    rows event).eraseDups
  let count (start : String) := (entries.filter fun entry => (afterPrefix start entry).isSome).length
  return { text := "Заявки пересортированы: в основной состав перемещено " ++
    s!"{count siftPromotedPrefix}, в запас — {count siftDemotedPrefix}" }

/-- The waiting row nearest to the end of the main part of a queue. -/
def demotedRow (queue : List Registration) (capacity : Nat) : Option Registration :=
  (queue.take capacity).reverse.find? (·.attendanceStatus = .waiting)

/-- Trade the places of a confirmed reserve row and the last waiting main row. -/
def promoteReserve (command : OrderedRegistrationCommand) (event : Event)
    (queue : List Registration) (capacity : Nat) (participantKey : ParticipantKey) :
    Act MutationResult := do
  match queue.findIdx? (·.participantKey = participantKey) with
  | none => notAllowed "Выбранный игрок уже не находится в запасе"
  | some selectedIndex =>
    refuseIf (selectedIndex < capacity) "Выбранный игрок уже не находится в запасе"
    match queue[selectedIndex]? with
    | none => raise .stopIteration
    | some promoted =>
      refuseIf (promoted.attendanceStatus ≠ .confirmed)
        "Выбранный игрок уже не подтвердил участие"
      match demotedRow queue capacity with
      | none =>
        notAllowed
          "В основном составе нет неподтверждённой заявки, которую можно переместить в запас"
      | some demoted =>
        recordMoves command event
          [siftSnapshotEntry .promoted participantKey,
            siftSnapshotEntry .demoted demoted.participantKey]
        let _ ← registrations (.swapQueuePositions event.eventId
          { operationId := command.operationId
            promotedParticipantKey := promoted.participantKey
            promotedCreatedAt := queueTime promoted
            demotedParticipantKey := demoted.participantKey
            demotedCreatedAt := queueTime demoted })
        let _ ← refresh bot event
        return { text := s!"Игрок «{promoted.displayName}» перемещён в основной состав, " ++
          s!"игрок «{demoted.displayName}» — в запас" }

def promoteReserveParticipant (command : OrderedRegistrationCommand) (event : Event) :
    Act MutationResult := do
  match command.participantKey with
  | none => raise .assertionError
  | some participantKey =>
    let rows ← registrations (.listForEvent event.eventId)
    match (activeQueue rows).find? (·.participantKey = participantKey) with
    | none => notAllowed "Выбранный игрок уже не находится в запасе"
    | some selected =>
      match answerCapacity event selected.answerId with
      | none => raise .missingAnswer
      | some capacity =>
        let queue := if event.registrationQuestion.isSome then
            activeQueue (activeQueue rows) selected.answerId
          else activeQueue rows
        if event.lastParticipantRemovalOperationId = some command.operationId &&
            siftSnapshotEntry .promoted participantKey ∈
              currentSiftEntries event.participantRemovalKeys queue event then
          let _ ← refresh bot event
          return { text := "Игрок уже перемещён в основной состав" }
        else
          promoteReserve bot command event queue capacity participantKey

/-! ## Operations of a player -/

/-- The profile links of a user: the VK page, and the Telegram page if there is a handle. -/
def profileLinks (user : User) : String × Option String :=
  let telegram := user.telegramHandle.map fun handle =>
    "https://t.me/" ++ (afterPrefix "@" handle).getD handle
  match user with
  | .telegram profile => (profile.vkUrl.getD "", telegram)
  | .vk profile => (s!"https://vk.com/id{profile.vkId}", telegram)

def updateProfile (command : OrderedRegistrationCommand) (event : Event)
    (participantKey : ParticipantKey) : Act MutationResult := do
  refuseIf (participantKey ≠ bot.keyOf ⟨command.platform, command.platformUserId⟩ event.eventId)
    "Некорректная запись участника"
  let user ← users (.get command.platform command.platformUserId)
  match user.filter User.profileComplete, user.bind fun user => user.base.fullName with
  | some user, some fullName =>
    let registration ← registrations (.get event.eventId participantKey)
    let leaders ← listLeaders event.eventId
    match registration with
    | none =>
      if (⟨command.platform, command.platformUserId⟩ : BotIdentity) ∉ leaders then
        return { text := "Запись игрока уже отсутствует", notificationsEnabled := false }
      else
        refreshPassTable bot event none
        return { text := "Профиль игрока обновлён", notificationsEnabled := false }
    | some _ =>
      let (vkProfile, telegramProfile) := profileLinks user
      let _ ← registrations (.updateProfile event.eventId command.operationId participantKey
        { displayName := surnameAndName fullName
          nickname := user.base.nickname
          larpExperience := user.base.larpExperience.getD false
          crossplay := user.base.crossplay.getD false
          vkProfile := vkProfile
          telegramProfile := telegramProfile })
      let (event, rows) ← refreshWithRows bot event
      refreshPassTable bot event (some rows)
      return { text := "Профиль игрока обновлён", notificationsEnabled := false }
  | _, _ => notAllowed "Сначала полностью заполните профиль"

/-- The profile snapshot of an enlistment: the payload's, or the user's where the payload has
none. -/
def enlistArguments (command : OrderedRegistrationCommand) (event : Event)
    (participantKey : ParticipantKey) (payload : EnlistPayload) (user : User) :
    Registrations.EnlistArguments :=
  let fromUser := payload.larpExperience.isNone || payload.crossplay.isNone ||
    payload.vkProfile = ""
  { operationId := command.operationId
    participantKey := participantKey
    displayName := surnameAndName payload.displayName
    nickname := user.base.nickname
    wishPlay := payload.wishPlay
    larpExperience := if fromUser then user.base.larpExperience else payload.larpExperience
    crossplay := if fromUser then user.base.crossplay else payload.crossplay
    vkProfile := if fromUser then (profileLinks user).1 else payload.vkProfile
    telegramProfile := match user with
      | .telegram _ => payload.telegramProfile
      | .vk _ =>
        if fromUser && payload.telegramProfile.isNone then (profileLinks user).2
        else payload.telegramProfile
    answerId := if event.registrationQuestion.isSome then payload.answerId else none }

/-- What an iterator finds, or its `StopIteration`. -/
def found {α : Type} : Option α → Act α
  | some a => .done a
  | none => raise .stopIteration

def enlist (command : OrderedRegistrationCommand) (event : Event)
    (participantKey : ParticipantKey) (payload : EnlistPayload) : Act MutationResult := do
  refuseIf (event.status = .closed) "Регистрация на эту игру закрыта"
  let now ← outside .now
  refuseIf (!event.registrationIsOpen now) "Регистрация на эту игру ещё не открыта"
  let (identities, existing) ← actorRegistrations bot event command
  refuseIf ((effectiveRegistration existing).any fun row =>
      isActive row && row.lastOperationId ≠ command.operationId)
    s!"Вы уже записаны на игру {eventReference event.name event.gameDate}"
  (match event.registrationQuestion with
    | some question =>
      refuseIf (question.option payload.answerId).isNone "Выберите ответ на дополнительный вопрос"
    | none => refuseIf payload.answerId.isSome "В этой игре нет дополнительного вопроса")
  let user ← users (.get command.platform command.platformUserId)
  match user.filter User.profileComplete with
  | none => notAllowed "Сначала полностью заполните профиль"
  | some user =>
    let _ ← registrations (.enlist event.eventId
      (enlistArguments command event participantKey payload user))
    let (event, rows) ← refreshWithRows bot event
    refreshPassTable bot event (some rows)
    let active := activeQueue rows
      (if event.registrationQuestion.isSome then payload.answerId else none)
    let index ← found (active.findIdx? (·.participantKey = participantKey))
    let sameDay ← (match event.gameDate with
      | some gameDate =>
        if payload.sameDayWarningShown then pure []
        else playerRegistrationsOnDate bot identities gameDate [.waiting, .confirmed]
          (some event.eventId) (some event)
      | none => pure [])
    let masters ← eventMasterRecords bot event.eventId
    let text ← value (enlistmentSuccessText event (index + 1) masters (!sameDay.isEmpty)
      payload.answerId)
    return {
      text := text
      buttons := if event.status = .confirmationOpen then some [confirmationButton event.eventId]
        else none }

/-- The confirmed participation that a confirmation gives up, as the validation found it. -/
structure Replacement where
  event : Event
  registration : Option Registration
  participantKey : Option ParticipantKey
  participantKeys : List ParticipantKey

/-- The replaced participation of a confirmation whose payload names a replaced event. -/
def namedReplacement (command : OrderedRegistrationCommand) (event : Event)
    (identities : List BotIdentity) (alreadyApplied : Bool) (replacedEventId : EventId) :
    Act (Option Replacement) := do
  let replaced ← events (.get replacedEventId)
  match replaced.filter (·.eventId ≠ event.eventId) with
  | none => notAllowed "Игра, участие в которой нужно заменить, не найдена"
  | some replacedEvent =>
    refuseIf (replacedEvent.gameDate ≠ event.gameDate) "Игры проводятся в разные дни"
    let existing ← catalogRegistrationsOf bot replacedEvent identities
    let registration := effectiveRegistration existing
    if registration.any (·.attendanceStatus = .confirmed) || alreadyApplied then
      return some {
        event := replacedEvent
        registration := registration
        participantKey :=
          if identities.length > 1 then registration.map Registration.participantKey
          else some (bot.keyOf ⟨command.platform, command.platformUserId⟩ replacedEvent.eventId)
        participantKeys := existing.map Registration.participantKey }
    else
      return none

/-- The same-day validation of a confirmation, and what it replaces. -/
def confirmReplacement (command : OrderedRegistrationCommand) (event : Event)
    (payload : CharacterWishPayload) (identities : List BotIdentity) (alreadyApplied : Bool) :
    Act (Option Replacement) := do
  match event.gameDate with
  | none =>
    refuseIf payload.replacedEventId.isSome "Для этой игры не задана дата"
    return none
  | some gameDate =>
    let conflicts ← playerRegistrationsOnDate bot identities gameDate [.confirmed]
      (some event.eventId) (some event)
    -- a non-empty set of identifiers differs from a singleton if a member does
    refuseIf (conflicts.any fun conflict => some conflict.1.eventId ≠ payload.replacedEventId)
      ("Вы уже подтвердили участие в другой игре этого дня. " ++
        "Начните подтверждение заново и подтвердите замену.")
    refuseIf (conflicts.isEmpty && payload.replacedEventId.isSome && !alreadyApplied)
      "Игры этого дня больше не пересекаются по времени. Начните подтверждение заново."
    match payload.replacedEventId with
    | none => return none
    | some replacedEventId =>
      namedReplacement bot command event identities alreadyApplied replacedEventId

/-- The write of a confirmation: linked profiles confirm all their rows. -/
def writeConfirmation (command : OrderedRegistrationCommand) (event : Event)
    (payload : CharacterWishPayload) (identities : List BotIdentity)
    (actorKeys : List ParticipantKey) (participantKey : ParticipantKey)
    (replacement : Option Replacement) : Act Unit := do
  let replacedEventId := replacement.map fun r => r.event.eventId
  if identities.length > 1 then
    let _ ← value (← registrations (.confirmLinked event.eventId command.operationId actorKeys
      payload.characterWish replacedEventId
      ((replacement.map Replacement.participantKeys).getD [])))
  else
    let _ ← value (← registrations (.confirm event.eventId command.operationId participantKey
      payload.characterWish replacedEventId (replacement.bind Replacement.participantKey)))

/-- The tables of the replaced event after a confirmation. -/
def refreshReplaced (replacement : Option Replacement) : Act Unit := do
  match replacement with
  | none => return ()
  | some replacement =>
    let (replacedEvent, rows) ← refreshWithRows bot replacement.event
    refreshPassTable bot replacedEvent (some rows)

/-- The registrations of the actor in the event, as the participant branches need them. -/
structure Actor where
  identities : List BotIdentity
  registrations : List Registration
  /-- `_effective_registration` of the actor. -/
  registration : Registration
  participantKey : ParticipantKey

def Actor.keys (actor : Actor) : List ParticipantKey :=
  actor.registrations.map Registration.participantKey

def Actor.linked (actor : Actor) : Bool :=
  actor.identities.length > 1

/-- Whether an earlier attempt of a confirmation has written the effective row. -/
def Actor.hasConfirmed (actor : Actor) (command : OrderedRegistrationCommand) : Bool :=
  actor.registration.lastOperationId = command.operationId &&
    actor.registration.attendanceStatus = .confirmed

def confirm (command : OrderedRegistrationCommand) (event : Event) (actor : Actor)
    (payload : CharacterWishPayload) : Act MutationResult := do
  refuseIf (!isActive actor.registration) "Сначала снова запишитесь на эту игру"
  let replacement ← confirmReplacement bot command event payload actor.identities
    (actor.hasConfirmed command)
  (match replacement with
    | none => pure ()
    | some replacement => recordPromotions replacement.event command replacement.registration)
  writeConfirmation command event payload actor.identities actor.keys actor.participantKey
    replacement
  refreshReplaced bot replacement
  let (event, rows) ← refreshWithRows bot event
  refreshPassTable bot event (some rows)
  let mainRosterKeys := (activeMainRoster rows event).map Registration.participantKey
  let masters ← eventMasterRecords bot event.eventId
  return {
    text := confirmationSuccessText event payload.characterWish
      (actor.keys.any (· ∈ mainRosterKeys)) masters
    replacedEventId := replacement.map fun r => r.event.eventId }

def updateCharacterWish (command : OrderedRegistrationCommand) (event : Event) (actor : Actor)
    (payload : CharacterWishPayload) : Act MutationResult := do
  refuseIf (!isActive actor.registration) "Сначала снова запишитесь на эту игру"
  refuseIf (actor.registration.attendanceStatus = .waiting &&
      actor.registration.characterWish = "")
    "Впервые укажите пожелания при подтверждении участия"
  (if actor.linked then do
    let _ ← registrations (.updateLinkedCharacterWish event.eventId command.operationId actor.keys
      payload.characterWish)
  else do
    let _ ← value (← registrations (.updateCharacterWish event.eventId command.operationId
      actor.participantKey payload.characterWish)))
  let _ ← refresh bot event
  return { text := "Пожелания по персонажу обновлены" }

def updateAnswer (command : OrderedRegistrationCommand) (event : Event) (actor : Actor)
    (answerId : String) : Act MutationResult := do
  match event.registrationQuestion.bind fun q => q.option (some answerId) with
  | none => notAllowed "Этот вариант ответа недоступен"
  | some option =>
    refuseIf (event.status = .closed) "Регистрация на эту игру уже закрыта"
    refuseIf (!isActive actor.registration) "Сначала снова запишитесь на эту игру"
    if actor.registration.answerId = some option.optionId &&
        actor.registration.lastOperationId ≠ command.operationId then
      return {
        text := s!"Ваш ответ уже выбран: {option.name}", notificationsEnabled := false }
    else
      recordPromotions event command (some actor.registration)
      let _ ← registrations (.updateAnswer event.eventId command.operationId actor.keys
        option.optionId)
      let (event, rows) ← refreshWithRows bot event
      let row ← found
        (rows.find? (·.participantKey = actor.registration.participantKey))
      let position ← found (queuePosition event rows row)
      let roster := if position ≤ option.playerAmount then "основной состав" else "запас"
      return { text := s!"Ответ изменён: {option.name}. Вы в конце очереди этого ответа: " ++
        s!"{roster}, место {position}." }

def updateCoPlayerWish (command : OrderedRegistrationCommand) (event : Event) (actor : Actor)
    (wishPlay : String) : Act MutationResult := do
  refuseIf (!isActive actor.registration) "Сначала снова запишитесь на эту игру"
  (if actor.linked then do
    let _ ← registrations (.updateLinkedCoPlayerWish event.eventId command.operationId actor.keys
      wishPlay)
  else do
    let _ ← value (← registrations (.updateCoPlayerWish event.eventId command.operationId
      actor.participantKey wishPlay)))
  let _ ← refresh bot event
  return { text := "Пожелания по соигрокам обновлены" }

def cancel (command : OrderedRegistrationCommand) (event : Event) (actor : Actor) :
    Act MutationResult := do
  whenever (event.lastParticipantRemovalOperationId ≠ some command.operationId) do
    -- the status is saved before cancelling, so that a retry still tells the masters
    value (← events (.setParticipantRemoval event.eventId command.operationId
      (if isActive actor.registration then [cancellationSnapshotEntry actor.registration] else [])))
  recordPromotions event command (some actor.registration)
  (if actor.linked then do
    let _ ← registrations (.cancelLinked event.eventId command.operationId actor.keys)
  else do
    let _ ← value (← registrations (.cancel event.eventId command.operationId
      actor.participantKey)))
  let (event, rows) ← refreshWithRows bot event
  refreshPassTable bot event (some rows)
  return { text := "Участие отменено" }

def removeParticipant (command : OrderedRegistrationCommand) (event : Event)
    (participantKey : ParticipantKey) : Act MutationResult := do
  let registration ← registrations (.get event.eventId participantKey)
  refuseIf (registration.any (!isActive ·)) "Запись этого игрока уже отменена"
  whenever (event.lastParticipantRemovalOperationId ≠ some command.operationId) do
    value (← events (.setParticipantRemoval event.eventId command.operationId
      (if registration.isSome then [participantKey] else [])))
  recordPromotions event command registration
  whenever registration.isSome do
    let _ ← registrations (.remove event.eventId participantKey)
  -- the first attempt may have deleted the row before a transient failure of a table
  let (event, rows) ← refreshWithRows bot event
  refreshPassTable bot event (some rows)
  return { text := if registration.isSome then "Игрок удалён" else "Игрок уже удалён" }

/-! ## The dispatch -/

/-- The branches that act on the author's own registrations. -/
def applyToActor (command : OrderedRegistrationCommand) (event : Event) (actor : Actor) :
    Act MutationResult :=
  match command.operation, command.payload with
  | .confirm, .characterWish payload => confirm bot command event actor payload
  | .updateCharacterWish, .characterWish payload =>
    updateCharacterWish bot command event actor payload
  | .updateAnswer, .answer answerId => updateAnswer bot command event actor answerId
  | .updateCoPlayerWish, .coPlayerWish wishPlay =>
    updateCoPlayerWish bot command event actor wishPlay
  | .cancel, _ => cancel bot command event actor
  | _, _ => raise .assertionError

def applyToParticipant (command : OrderedRegistrationCommand) (event : Event)
    (participantKey : ParticipantKey) : Act MutationResult := do
  refuseIf (command.operation = .confirm && event.status ≠ .confirmationOpen)
    (if event.status = .created then "Подтверждение участия в этой игре ещё не открыто"
    else "Подтверждение участия в этой игре закрыто")
  let (identities, found) ← actorRegistrations bot event command
  if command.operation = .removeParticipant then
    removeParticipant bot command event participantKey
  else
    refuseIf (participantKey ∉ identities.map (bot.keyOf · event.eventId))
      "Некорректная запись участника"
    match effectiveRegistration found with
    | none => .fail (.domain ⟨.registrationNotFound, "Сначала запишитесь на эту игру"⟩)
    | some registration =>
      applyToActor bot command event ⟨identities, found, registration, participantKey⟩

/-- The operations that only the masters of the game and the admins may order. -/
def Operation.isAdministrative : Operation → Bool
  | .openRegistration | .openConfirmation | .sendConfirmationReminder
  | .sendConfirmedNotification | .sendAllPlayersNotification | .updateEventDetails
  | .updateQuestion | .updatePlayerAmount | .removeParticipant | .removeWaitingParticipants
  | .promoteReserveParticipant | .closeEvent | .archiveEvent => true
  | _ => false

/-- The branches on a migrated event. -/
def applyToRoster (command : OrderedRegistrationCommand) (event : Event) : Act MutationResult := do
  let event ← ensureMigrated bot event
  match command.operation, command.participantKey, command.payload with
  | .removeWaitingParticipants, _, _ => removeWaitingParticipants bot command event
  | .promoteReserveParticipant, _, _ => promoteReserveParticipant bot command event
  | _, none, _ => raise .assertionError
  | .updateProfile, some participantKey, _ => updateProfile bot command event participantKey
  | .enlist, some participantKey, .enlist payload =>
    enlist bot command event participantKey payload
  | _, some participantKey, _ => applyToParticipant bot command event participantKey

def applyToActive (command : OrderedRegistrationCommand) (event : Event) :
    Act MutationResult := do
  whenever command.operation.isAdministrative do
    requireEventLeader command
  match command.operation, command.payload with
  | .openConfirmation, .confirmationDeadline deadline => openConfirmation event deadline
  | .sendConfirmationReminder, _ => sendConfirmationReminder event
  | .sendConfirmedNotification, .notification text => sendConfirmedNotification command event text
  | .sendAllPlayersNotification, .notification _ =>
    return { text := "Уведомление всем игрокам отправлено" }
  | .updateEventDetails, .eventDetails payload => updateEventDetails bot event payload
  | .updateQuestion, .question question => updateQuestion bot event question
  | .updatePlayerAmount, .playerAmount amount => updatePlayerAmount bot command event amount
  | .openRegistration, _ => setStatus event .created "Установлен Статус «Регистрация»"
  | .closeEvent, _ => setStatus event .closed "Установлен Статус «Закрытие регистрации»"
  | .archiveEvent, _ => archiveEvent bot event
  | _, _ => applyToRoster bot command event

def applyToEvent (command : OrderedRegistrationCommand) (event : Event) : Act MutationResult :=
  match command.operation, command.payload with
  | .scheduledOpenConfirmation, .confirmationDeadline deadline =>
    scheduledOpenConfirmation bot command event deadline
  | .unarchiveEvent, _ => unarchiveEvent bot command event
  | .deleteEvent, _ => deleteEvent command event
  | _, _ =>
    if event.archivedAt.isSome then applyToArchived bot command event
    else applyToActive bot command event

def apply (command : OrderedRegistrationCommand) : Act MutationResult := do
  match ← events (.get command.eventId) with
  | some event => applyToEvent bot command event
  | none =>
    if command.operation = .archiveEvent || command.operation = .deleteEvent then
      return { text := "Игра уже отсутствует в постоянном списке" }
    else eventNotFound "Игра уже удалена или не существует"

end LarpBot
