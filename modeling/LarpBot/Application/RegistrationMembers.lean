import LarpBot.Application.OrderedMutations

/-!
# Telegram members and their registrations

`RegistrationService.get_registration` and `get_registration_for_telegram_member`: how the gateway
finds the registration of someone who joins the Telegram chat of a game, first by number and linked
profile, then by the name that the profile shows. And `RegistrationService.enqueue`, which hands a
command to the ordered worker.
-/

namespace LarpBot

open Atomic Act

variable (bot : Deployment)

/-- `[A-Za-z0-9_]{5,32}`. -/
def isTelegramName (candidate : String) : Bool :=
  5 ≤ candidate.length && candidate.length ≤ 32 &&
    candidate.toList.all fun c => c.isAlphanum || c = '_'

/-- `normalize_telegram_handle`: the form in which a profile stores its handle. -/
def normalizeTelegramHandle (value : Option String) : Except Fault (Option String) :=
  match value.map fun text => String.ofList (pythonStrip text) with
  | none => .ok none
  | some text =>
    if text ∈ ["", "-", "Пропустить"] then .ok none
    else
      let candidate := bot.casefold ((afterPrefix "@" text).getD text)
      if isTelegramName candidate then .ok (some ("@" ++ candidate))
      else .error (.valueError "Некорректный Telegram username")

/-- `RegistrationService._event`. -/
def registeredEvent (eventId : EventId) : Act Event := do
  match ← events (.get eventId) with
  | some event => return event
  | none => eventNotFound "Игра не найдена"

def getRegistration (eventId : EventId) (platform : Platform) (userId : Nat) :
    Act (Option Registration) := do
  let event ← registeredEvent eventId
  let identities ← identitiesForLocalUser platform userId
  let found ← catalogRegistrationsOf bot event identities
  return effectiveRegistration found

def rememberTelegramMember (userId : Nat) (handle : Option String) : Act Unit := do
  match handle with
  | none => return ()
  | some handle =>
    match ← users (.get .telegram userId) with
    | none =>
      let now ← outside .now
      users (.save (.telegram { tgId := userId, telegramHandle := some handle, updatedAt := now }))
    | some (.telegram user) =>
      whenever (user.telegramHandle ≠ some handle) do
        users (.updateTelegramHandle userId handle)
    | some (.vk _) => return ()

/-- Resolve a Telegram member by numeric or linked identity, then by stored handle. -/
def getRegistrationForTelegramMember (eventId : EventId) (userId : Nat)
    (username : Option String) : Act (Option Registration) := do
  let direct ← getRegistration bot eventId .telegram userId
  let handle ← value (normalizeTelegramHandle bot username)
  match direct, handle with
  | some direct, handle =>
    rememberTelegramMember userId handle
    return some direct
  | none, none => return none
  | none, some handle =>
    let stored ← registrations (.findByTelegramProfile handle)
    let registration := effectiveRegistration (stored.filter (·.eventId = eventId))
    whenever registration.isSome do
      rememberTelegramMember userId (some handle)
    return registration

/-! ## Commands -/

/-- The operations of masters and admins. -/
def administrativeOperations : List Operation :=
  [.refreshEventTables, .openRegistration, .openConfirmation, .sendConfirmationReminder,
    .sendConfirmedNotification, .sendAllPlayersNotification, .updateEventDetails, .updateQuestion,
    .updatePlayerAmount, .removeParticipant, .removeWaitingParticipants, .promoteReserveParticipant,
    .closeEvent, .archiveEvent, .unarchiveEvent, .deleteEvent]

def targetedAdministrativeOperations : List Operation :=
  [.removeParticipant, .promoteReserveParticipant]

/-- The `OrderedRegistrationCommand` of some fields, or the `ValueError` of its validators. -/
def orderedCommand (operationId : OperationId) (eventId : EventId) (operation : Operation)
    (platform : Platform) (userId : Nat) (participant : Option ParticipantKey)
    (identityGroup : Option String) (payload : CommandPayload) (replyContext : ReplyContext) :
    Except Fault OrderedRegistrationCommand :=
  if h : payloadFits operation payload = true ∧
      (operation.isParticipantOperation = true → participant.getD "" ≠ "") ∧
      groupFits operation eventId platform userId payload = true then
    .ok
      { operationId := operationId
        eventId := eventId
        operation := operation
        platform := platform
        platformUserId := userId
        participantKey := participant
        identityGroup := identityGroup
        payload := payload
        replyContext := replyContext
        payload_fits := h.1
        participant_named := h.2.1
        group_fits := h.2.2 }
  else .error (.valueError "OrderedRegistrationCommand")

/-- The participant of a command, and the identities that were read to find it. -/
def enqueuedParticipant (operation : Operation) (event : Event) (platform : Platform) (userId : Nat)
    (target : Option ParticipantKey) : Act (Option ParticipantKey × Option (List BotIdentity)) := do
  let own := bot.participantKey platform userId event.eventId
  if operation ∈ targetedAdministrativeOperations then
    match target with
    | none => raise (.valueError "the operation requires a target participant")
    | some key => return (some key, none)
  else if target.isSome then
    raise (.valueError
      "a target participant is only valid for a targeted administrative operation")
  else if operation ∈ administrativeOperations then return (none, none)
  else if operation ∈ [.enlist, .updateProfile] then return (some own, none)
  else
    let identities ← identitiesForLocalUser platform userId
    let existing := effectiveRegistration (← catalogRegistrationsOf bot event identities)
    return (some ((existing.map Registration.participantKey).getD own), some identities)

/-- The group of a `CONFIRM`: all identities of its author. -/
def confirmationGroup (identities : List BotIdentity) : String :=
  ":".intercalate ((sortBy (fun identity =>
    toLex (identity.platform.value, identity.platformUserId)) identities).map fun identity =>
      s!"{identity.platform.value}:{identity.platformUserId}")

/-- Every caller gives a key that makes the operation id the same at each attempt. -/
def enqueue (operation : Operation) (eventId : EventId) (platform : Platform) (userId : Nat)
    (payload : CommandPayload) (replyContext : ReplyContext) (idempotencyKey : String)
    (target : Option ParticipantKey) : Act OrderedRegistrationCommand := do
  let event ← registeredEvent eventId
  whenever (operation = .enlist) do
    refuseIf (event.status = .closed) "Регистрация на эту игру закрыта"
    let now ← outside .now
    refuseIf (!event.registrationIsOpen now) "Регистрация на эту игру ещё не открыта"
  let (participant, identities) ← enqueuedParticipant bot operation event platform userId target
  let identityGroup ← (if operation = .confirm then do
      let identities ← (match identities with
        | some (identity :: others) => pure (identity :: others)
        | _ => identitiesForLocalUser platform userId : Act (List BotIdentity))
      return some (confirmationGroup identities)
    else pure none : Act (Option String))
  let command ← value (orderedCommand
    (bot.uuid5 s!"larp-bot:{platform.value}:{userId}:{idempotencyKey}") eventId operation platform
    userId participant identityGroup payload replyContext)
  present "publish" (← outside (.publish command))
  return command

end LarpBot
