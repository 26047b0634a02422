import LarpBot.Application.OrderedMutations

/-!
# Notification services

`ConfirmationNotificationService`. Every message goes through `deliver`: a recipient whose platform
refuses for good counts as done, every other failure ends the attempt. What keeps a retry from
repeating itself differs from method to method (the delivery marker of the user, the markers of the
event, the stored deliveries of a registration), and is modelled where the source has it.
-/

namespace LarpBot

open Atomic Act

variable (bot : Deployment)

/-- Send one notification, reporting whether the recipient can receive it. -/
def deliver (platform : Platform) (userId : Nat) (requestId text : String)
    (buttons : List Button) : Act Bool := do
  match ← outside (.send platform userId requestId text buttons) with
  | .accepted => return true
  | .unreachable => return false
  | .failed => raise (.integration "send")

/-- Send messages in order until one is refused: whether the last one was not, and the request it
carried. -/
def deliverAll (platform : Platform) (userId : Nat) (buttons : List Button) :
    List (String × String) → Act (Bool × Option String)
  | [] => return (true, none)
  | (requestId, text) :: rest => do
    if ← deliver platform userId requestId text buttons then
      let (reached, last) ← deliverAll platform userId buttons rest
      return (reached, some (last.getD requestId))
    else return (false, some requestId)

def claimDelivery (platform : Platform) (userId : Nat) (requestId : String)
    (buttons : List Button) : Act Unit := do
  let _ ← users (.claimDelivery platform userId requestId buttons)

/-- The event of a notification. -/
def notifiedEvent (eventId : EventId) : Act Event := do
  match ← events (.get eventId) with
  | some event => return event
  | none => eventNotFound "Игра не найдена"

/-- The users whose participant key in the event is one of some keys, in the order of the store. -/
def usersWithKeys (eventId : EventId) (keys : List ParticipantKey) (profiles : List User) :
    List User :=
  profiles.filter fun user => bot.keyOf user.identity eventId ∈ keys

/-- The keys that a fan-out is for. -/
def recipientKeys (event : Event) (attendanceStatuses : List AttendanceStatus)
    (mainRosterOnly : Bool) (rows : List Registration) : List ParticipantKey :=
  (rows.filter fun row =>
    row.attendanceStatus ∈ attendanceStatuses &&
      (!mainRosterOnly || (activeMainRoster rows event).any
        (·.participantKey = row.participantKey))).map Registration.participantKey

def recipients (event : Event) (attendanceStatuses : List AttendanceStatus)
    (mainRosterOnly : Bool) : Act (List User) := do
  let _ ← ensureMigrated bot event
  let rows ← registrations (.listForEvent event.eventId)
  let profiles ← users .listAll
  return usersWithKeys bot event.eventId
    (recipientKeys event attendanceStatuses mainRosterOnly rows) profiles

/-! ## The fan-out -/

/-- `NOTIFICATION_OPERATIONS`. -/
def Operation.isNotification : Operation → Bool
  | .openConfirmation | .scheduledOpenConfirmation | .sendConfirmationReminder
  | .sendConfirmedNotification | .sendAllPlayersNotification => true
  | _ => false

/-- What a fan-out says, to whom, and under which buttons. -/
structure Broadcast where
  text : String
  attendanceStatuses : List AttendanceStatus
  mainRosterOnly : Bool := false
  buttons : List Button

def broadcastOf (command : OrderedRegistrationCommand) (event : Event) : Act Broadcast :=
  match command.operation, command.payload with
  | .sendConfirmedNotification, .notification text => return {
      text := confirmedNotificationText bot event.name text event.gameDate
      attendanceStatuses := [.confirmed]
      mainRosterOnly := isPlainChatLink bot text
      buttons := [mainMenuButton] }
  | .sendAllPlayersNotification, .notification text => return {
      text := playerNotificationText event.name text event.gameDate
      attendanceStatuses := [.waiting, .confirmed]
      buttons := [mainMenuButton] }
  | operation, _ =>
    match event.confirmationDeadline with
    | none => notAllowed "Для игры не задан дедлайн подтверждения"
    | some deadline =>
      let until_ := formatConfirmationDeadline deadline
      let reference := eventReference event.name event.gameDate
      return {
        text :=
          if operation = .openConfirmation || operation = .scheduledOpenConfirmation then
            s!"Подтверждение участия в игре {reference} открыто! Подтвердите участие до {until_} (мск)."
          else s!"Напоминаем: подтвердите участие в игре {reference} до {until_} (мск)."
        attendanceStatuses := [.waiting]
        buttons := [confirmationButton event.eventId] }

/-- The request under which a fan-out reaches one user. -/
def broadcastRequest (operationId : OperationId) (identity : BotIdentity) : String :=
  s!"{operationId}:confirmation-notification:{identity.platform.value}:{identity.platformUserId}"

/-- One recipient of a fan-out. The marker is also written for a refused recipient. -/
def notifyOne (operationId : OperationId) (broadcast : Broadcast) (user : User) : Act Bool := do
  let requestId := broadcastRequest operationId user.identity
  if user.base.lastDeliveryOperationId = some requestId then
    return false
  else
    let reached ← deliver user.identity.platform user.identity.platformUserId requestId
      broadcast.text broadcast.buttons
    claimDelivery user.identity.platform user.identity.platformUserId requestId broadcast.buttons
    return reached

def notify (command : OrderedRegistrationCommand) : Act Nat := do
  let event ← notifiedEvent command.eventId
  let broadcast ← broadcastOf bot command event
  let users ← recipients bot event broadcast.attendanceStatuses broadcast.mainRosterOnly
  let reached ← Prog.traverse (notifyOne command.operationId broadcast) users
  return reached.count true

/-! ## The confirming player -/

/-- Deliver confirmation success and every earlier master notification as one retry unit. -/
def notifyConfirmingParticipant (command : OrderedRegistrationCommand) (confirmationText : String)
    (confirmationButtons : List Button) : Act Nat := do
  let user ← users (.get command.platform command.platformUserId)
  if user.any (·.base.lastDeliveryOperationId = some command.operationId) then
    return 0
  else
    let event ← notifiedEvent command.eventId
    if ← deliver command.platform command.platformUserId
        s!"{command.operationId}:confirmation-result" confirmationText confirmationButtons then
      let rows ← registrations (.listForEvent event.eventId)
      let linkRecipients := chatLinkRecipientKeys rows event
      let past := event.confirmedNotifications.zipIdx.filter fun (storedText, _) =>
        !isPlainChatLink bot storedText || command.participantKey.any (· ∈ linkRecipients)
      let _ ← deliverAll command.platform command.platformUserId [mainMenuButton]
        (past.map fun (storedText, index) =>
          (s!"{command.operationId}:past-confirmed-notification:{index}",
            confirmedNotificationText bot event.name storedText event.gameDate))
      -- one marker stands for the complete bundle
      claimDelivery command.platform command.platformUserId command.operationId
        (if past.isEmpty then confirmationButtons else [mainMenuButton])
      return past.length
    else
      claimDelivery command.platform command.platformUserId command.operationId
        confirmationButtons
      return 0

/-! ## Promotions -/

/-- Notify the one reserve player promoted by this roster mutation. -/
def notifyReservePromotion (command : OrderedRegistrationCommand) (eventId : EventId) :
    Act Nat := do
  let event ← notifiedEvent eventId
  match event.lastReservePromotionParticipantKey with
  | some promotedKey =>
    if event.lastReservePromotionOperationId ≠ some command.operationId ||
        event.lastReservePromotionDeliveredOperationId = some command.operationId then
      return 0
    else
      let profiles ← users .listAll
      match profiles.find? fun user => bot.keyOf user.identity event.eventId = promotedKey with
      | none => return 0
      | some user =>
        let requestId := s!"{command.operationId}:reserve-promotion"
        if user.base.lastDeliveryOperationId = some requestId then
          return 0
        else
          let links ← value (match publicTableLinksForPlayer event with
            | some links => .ok links
            | none => .error (.runtimeError "table has no public link"))
          let reached ← deliver user.identity.platform user.identity.platformUserId requestId
            ("Место освободилось: вы перешли из запаса в основной состав игры " ++
              s!"{eventReference event.name event.gameDate}.\n\n" ++
              "После подтверждения участия мастера отправят вам ссылку на чат игры отдельным " ++
              s!"сообщением.\n\nПосмотрите актуальный состав игроков: {links}")
            [mainMenuButton]
          value (← events (.markReservePromotionDelivered event.eventId command.operationId))
          claimDelivery user.identity.platform user.identity.platformUserId requestId
            [mainMenuButton]
          return if reached then 1 else 0
  | none => return 0

/-- Replay chat links when a confirmed reserve player enters the confirmed-player limit. -/
def notifyConfirmedLinkPromotion (command : OrderedRegistrationCommand) (eventId : EventId) :
    Act Nat := do
  let event ← notifiedEvent eventId
  match event.lastConfirmedLinkPromotionParticipantKey with
  | some promotedKey =>
    if event.lastConfirmedLinkPromotionOperationId ≠ some command.operationId ||
        event.lastConfirmedLinkPromotionDeliveredOperationId = some command.operationId then
      return 0
    else
      let profiles ← users .listAll
      match profiles.find? fun user => bot.keyOf user.identity event.eventId = promotedKey with
      | none => return 0
      | some user =>
        let links := event.confirmedNotifications.filter (isPlainChatLink bot)
        let (reached, lastRequestId) ← deliverAll user.identity.platform
          user.identity.platformUserId [mainMenuButton]
          (links.zipIdx.map fun (link, index) =>
            (s!"{command.operationId}:confirmed-link-promotion:{index}",
              confirmedNotificationText bot event.name link event.gameDate))
        value (← events (.markConfirmedLinkPromotionDelivered event.eventId command.operationId))
        (match lastRequestId with
          | none => pure ()
          | some requestId => claimDelivery user.identity.platform user.identity.platformUserId
              requestId [mainMenuButton])
        return if reached then links.length else 0
  | none => return 0

/-! ## The masters -/

/-- The name under which the masters read of a player. -/
def participationName (registration : Registration) : String :=
  let name := match pythonSplit registration.displayName with
    | [] => "не указан"
    | [surname] => surname
    | surname :: name :: _ => s!"{name} {surname}"
  match registration.nickname with
  | some nickname => if nickname = "" then name else s!"{name} ({nickname})"
  | none => name

/-- The smallest `platform:number` of a person: stable for linked accounts. -/
def personName (identities : List BotIdentity) : String :=
  (sortBy id (identities.map fun identity =>
    s!"{identity.platform.value}:{identity.platformUserId}")).headD ""

/-- The masters one after the other, each person once: `seen` are the identities done. -/
def notifyMasters (command : OrderedRegistrationCommand) (eventId : EventId)
    (participantKey : ParticipantKey) (text : String) (buttons : List Button) :
    List BotIdentity → List BotIdentity → Act Nat
  | _, [] => return 0
  | seen, identity :: rest => do
    let identities ← identitiesForLocalUser identity.platform identity.platformUserId
    if identities.any (· ∈ seen) then
      notifyMasters command eventId participantKey text buttons seen rest
    else
      let requestId :=
        s!"{command.operationId}:master-participation:{personName identities}"
      let done ← one (.participationNotificationDelivered eventId participantKey requestId)
      if done then
        notifyMasters command eventId participantKey text buttons (identities ++ seen) rest
      else
        let reached ← deliver identity.platform identity.platformUserId requestId text buttons
        one (.markParticipationNotificationDelivered eventId participantKey requestId)
        whenever reached do
          claimDelivery identity.platform identity.platformUserId requestId buttons
        let delivered ← notifyMasters command eventId participantKey text buttons
          (identities ++ seen) rest
        return (if reached then 1 else 0) + delivered

/-- Report a persisted signup or confirmation once per operation and global master. -/
def notifyMastersOfParticipation (command : OrderedRegistrationCommand) : Act Nat := do
  let event ← notifiedEvent command.eventId
  match command.participantKey with
  | none => raise (.valueError "participation command has no participant key")
  | some participantKey =>
    let enlisted : Bool := command.operation = .enlist
    let stored ← registrations (.get event.eventId participantKey)
    match stored.filter fun row => row.lastOperationId = command.operationId &&
        row.attendanceStatus = (if enlisted then .waiting else .confirmed) with
    | none => return 0
    | some registration =>
      let rows ← registrations (.listForEvent event.eventId)
      let position ← found (queuePosition event rows registration)
      match answerCapacity event registration.answerId with
      | none => raise .missingAnswer
      | some capacity =>
        let verb := if enlisted then "записался на игру" else "подтвердил участие в игре"
        let roster := if position ≤ capacity then "Основной состав" else "Запас"
        let text := (if enlisted then "📝 " else "✅ ") ++ participationName registration ++
          s!" {verb} {eventReference event.name event.gameDate}.\n{roster}, место {position}." ++
          (if event.registrationQuestion.isSome then "\n" ++ answerText event registration else "")
        let actor ← identitiesForLocalUser command.platform command.platformUserId
        let records ← eventMasterRecords bot event.eventId
        let masters := sortBy (fun (identity : BotIdentity) =>
          toLex (decide (identity.platform ≠ .telegram), identity.platformUserId))
          (records.map Prod.fst)
        notifyMasters command event.eventId participantKey text
          [⟨"Управление игрой", s!"ag:manage:{event.eventId}"⟩] actor masters

/-- Every master of the game except the player who cancelled. -/
def cancellationMasters (eventId : EventId) (command : OrderedRegistrationCommand) :
    Act (List (BotIdentity × Option User)) := do
  let records ← eventMasterRecords bot eventId
  return records.filter fun record => record.1 ≠ ⟨command.platform, command.platformUserId⟩

def commandPlayerName (command : OrderedRegistrationCommand) : Act (String × Option String) := do
  match ← users (.get command.platform command.platformUserId) with
  | none => return ("не указан", none)
  | some player =>
    return ((player.base.fullName.map surnameAndName).getD "не указан", player.base.nickname)

/-- The request under which a master hears of a cancellation. -/
def cancellationRequest (operationId : OperationId) (identity : BotIdentity) : String :=
  s!"{operationId}:cancellation-master:{identity.platform.value}:{identity.platformUserId}"

/-- The first parsed cancellation of a snapshot. -/
def snapshotCancellation (event : Event) : Option (Bool × ParticipantKey) :=
  event.participantRemovalKeys.findSome? parseCancellationSnapshotEntry

/-- Tell every master of the game that a player cancelled and whether they had confirmed. -/
def notifyMastersOfCancellation (command : OrderedRegistrationCommand) : Act Nat := do
  let event ← notifiedEvent command.eventId
  match if event.lastParticipantRemovalOperationId = some command.operationId then
      snapshotCancellation event else none with
  | none => return 0
  | some (confirmed, key) =>
    let registration ← registrations (.get event.eventId key)
    let (playerName, nickname) ← (match registration with
      | some registration => pure (registration.displayName, registration.nickname)
      | none => commandPlayerName command : Act (String × Option String))
    let text := cancellationMasterText event playerName nickname confirmed false
    let masters ← cancellationMasters bot event.eventId command
    let reached ← Prog.traverse (fun (record : BotIdentity × Option User) => do
      let identity := record.1
      let marker := cancellationMasterPrefix ++
        s!"{identity.platform.value}:{identity.platformUserId}"
      if marker ∈ event.participantRemovalNotifiedKeys then return false
      else
        let requestId := cancellationRequest command.operationId identity
        let reached ← deliver identity.platform identity.platformUserId requestId text
          [mainMenuButton]
        value (← events (.markParticipantRemovalDelivered event.eventId command.operationId marker))
        claimDelivery identity.platform identity.platformUserId requestId [mainMenuButton]
        return reached) masters
    return reached.count true

/-- The Telegram account of the author of a command. -/
def telegramAccount (command : OrderedRegistrationCommand) (event : Event)
    (cancelledKey : Option ParticipantKey) : Act (Option Nat) := do
  if command.platform = .telegram then
    return some command.platformUserId
  else
    let localUser ← users (.get command.platform command.platformUserId)
    let profiles ← (match localUser with
      | none => pure []
      | some user => globalUsers user : Act (List User))
    let telegramId (user : User) : Option Nat := match user with
      | .telegram profile => some profile.tgId
      | .vk _ => none
    match profiles.findSome? telegramId with
    | some id => return some id
    | none =>
      let key := cancelledKey.getD
        (bot.keyOf ⟨command.platform, command.platformUserId⟩ event.eventId)
      let registration ← registrations (.get event.eventId key)
      match registration.bind Registration.telegramProfile with
      | none => return none
      | some profile =>
        let user ← users (.findTelegramByHandle profile)
        return user.map TelegramUser.tgId

/-- Remove a formerly confirmed global user's Telegram profile from its game chat. `confirmed` is
given where a replacement states the prior status; otherwise the snapshot of the cancellation does. -/
def kickCancelledParticipant (command : OrderedRegistrationCommand) (eventId : EventId)
    (confirmed : Option Bool) : Act Bool := do
  let event ← notifiedEvent eventId
  match event.telegramChatId with
  | none => return false
  | some chatId =>
    let cancellation :=
      if confirmed.isSome || event.lastParticipantRemovalOperationId ≠ some command.operationId then
        none
      else snapshotCancellation event
    if confirmed.getD (cancellation.any Prod.fst) then
      match ← telegramAccount bot command event (cancellation.map Prod.snd) with
      | none => return false
      | some userId =>
        present "kick_member" (← outside (.kickMember chatId userId
          s!"{command.operationId}:kick:{event.eventId}:{userId}"))
    else return false

/-- Tell the masters of a same-day game that its confirmed player switched to another game. -/
def notifyMastersOfReplacedParticipation (command : OrderedRegistrationCommand)
    (eventId : EventId) : Act Nat := do
  let event ← notifiedEvent eventId
  let (playerName, nickname) ← commandPlayerName command
  let text := cancellationMasterText event playerName nickname true true
  let masters ← cancellationMasters bot event.eventId command
  let reached ← Prog.traverse (fun (record : BotIdentity × Option User) => do
    let requestId := cancellationRequest command.operationId record.1
    if record.2.any (·.base.lastDeliveryOperationId = some requestId) then return false
    else
      let reached ← deliver record.1.platform record.1.platformUserId requestId text
        [mainMenuButton]
      claimDelivery record.1.platform record.1.platformUserId requestId [mainMenuButton]
      return reached) masters
  return reached.count true

/-! ## Snapshots with several recipients -/

/-- Messages to the recipient of one snapshot entry, and the marker that stands for them. -/
def deliverEntry (command : OrderedRegistrationCommand) (event : Event) (entry : String)
    (user : User) (messages : List (String × String)) : Act Bool := do
  let (reached, lastRequestId) ← deliverAll user.identity.platform user.identity.platformUserId
    [mainMenuButton] messages
  value (← events (.markParticipantRemovalDelivered event.eventId command.operationId entry))
  claimDelivery user.identity.platform user.identity.platformUserId (lastRequestId.getD "")
    [mainMenuButton]
  return reached

/-- The last stored user with a key: the one that a dictionary by key keeps. -/
def userWithKey (eventId : EventId) (key : ParticipantKey) (profiles : List User) : Option User :=
  (profiles.filter fun user => bot.keyOf user.identity eventId = key).getLast?

/-- Numbered requests for the messages to one recipient. -/
def numbered (start : String) (texts : List String) : List (String × String) :=
  texts.zipIdx.map fun (text, index) => (s!"{start}:{index}", text)

/-- Notify every reserve participant moved into the enlarged main roster. -/
def notifyCapacityPromotions (command : OrderedRegistrationCommand) : Act Nat := do
  let event ← notifiedEvent command.eventId
  if event.lastParticipantRemovalOperationId ≠ some command.operationId then
    return 0
  else
    let rows ← registrations (.listForEvent event.eventId)
    let profiles ← users .listAll
    let chatLinks := event.confirmedNotifications.filter (isPlainChatLink bot)
    let reached ← Prog.traverse (fun key => do
      match if key ∈ event.participantRemovalNotifiedKeys then none
          else userWithKey bot event.eventId key profiles with
      | none => return false
      | some user =>
        let links ← value (match publicTableLinksForPlayer event with
          | some links => .ok links
          | none => .error (.runtimeError "table has no public link"))
        let confirmed := (rows.find? (·.participantKey = key)).any
          (·.attendanceStatus = .confirmed)
        deliverEntry command event key user (numbered
          s!"{command.operationId}:capacity-promotion:{user.identity.platform.value}:{user.identity.platformUserId}"
          (("Количество мест увеличилось: вы перешли из запаса в основной состав игры " ++
            s!"{eventReference event.name event.gameDate}.\n\n" ++
            s!"Посмотрите актуальный состав игроков: {links}") ::
          if confirmed then chatLinks.map
            (confirmedNotificationText bot event.name · event.gameDate) else [])))
      event.participantRemovalKeys.eraseDups
    return reached.count true

def notifyRemovedParticipants (command : OrderedRegistrationCommand) : Act Nat := do
  let event ← notifiedEvent command.eventId
  if event.lastParticipantRemovalOperationId ≠ some command.operationId then
    return 0
  else
    let profiles ← users .listAll
    let text := s!"Ваша запись на игру {eventReference event.name event.gameDate} удалена."
    let reached ← Prog.traverse (fun key => do
      match if key ∈ event.participantRemovalNotifiedKeys then none
          else userWithKey bot event.eventId key profiles with
      | none => return false
      | some user => deliverEntry command event key user [(
          s!"{command.operationId}:participant-removal:{user.identity.platform.value}:{user.identity.platformUserId}",
          text)])
      event.participantRemovalKeys.eraseDups
    return reached.count true

/-- The messages that a sift sends to the player of one entry. -/
def siftMessages (command : OrderedRegistrationCommand) (event : Event) (move : SiftMove)
    (links : Option String) : Except Fault (List String) :=
  match move, links with
  | .promoted, none => .error (.runtimeError "table has no public link")
  | .promoted, some links => .ok <|
    ("Вы перешли из запаса в основной состав игры " ++
      s!"{eventReference event.name event.gameDate}.\n\n" ++
      s!"Посмотрите актуальный состав игроков: {links}") ::
    (event.confirmedNotifications.filter (isPlainChatLink bot)).map
      (confirmedNotificationText bot event.name · event.gameDate)
  | .demoted, _ => .ok [
    if command.operation = .promoteReserveParticipant then
      "Мастера переместили вашу неподтверждённую заявку в запас игры " ++
        s!"{eventReference event.name event.gameDate}."
    else
      "Вы не успели подтвердить или отменить ваше участие в игре " ++
        s!"«{event.name}». Мы были вынуждены переместить вашу заявку в запас"]

def notifySiftedParticipants (command : OrderedRegistrationCommand) : Act Nat := do
  let event ← notifiedEvent command.eventId
  if event.lastParticipantRemovalOperationId ≠ some command.operationId then
    return 0
  else
    let profiles ← users .listAll
    let rows ← registrations (.listForEvent event.eventId)
    let current := currentSiftEntries event.participantRemovalKeys rows event
    let reached ← Prog.traverse (fun entry => do
      match if entry ∈ event.participantRemovalNotifiedKeys || entry ∉ current then none
          else parseSiftSnapshotEntry entry with
      | none => return false
      | some (move, key) =>
        match userWithKey bot event.eventId key profiles with
        | none => return false
        | some user =>
          let texts ← value (siftMessages bot command event move
            (publicTableLinksForPlayer event))
          let transition := match move with
            | .promoted => "promotion"
            | .demoted => "demotion"
          deliverEntry command event entry user (numbered
            s!"{command.operationId}:confirmation-sift:{transition}:{user.identity.platform.value}:{user.identity.platformUserId}"
            texts))
      event.participantRemovalKeys.eraseDups
    return reached.count true

end LarpBot
