import LarpBot.Application.NotificationServices
import LarpBot.Foundation.Redelivery

/-!
# The ordered worker

What `OrderedWorker._drain` does with one received command. `process` is one attempt: the mutation,
the notifications that follow from its result, and the reply to the author. A domain error is
answered to the author and ends the attempt well; any other failure ends it badly, and the message
stays in its queue. The queue itself, with its groups and redeliveries, is `Foundation/Redelivery`.

The operations of other services (profile sync, statistics, table creation, scheduled closing) are
one parameter, `otherServices`.
-/

namespace LarpBot

open Atomic Act

/-- The services behind the operations that are not ordered mutations: the reply text of a command
and whether it is announced. -/
abbrev OtherServices := OrderedRegistrationCommand → Act (String × Bool)

variable (bot : Deployment) (otherServices : OtherServices)

/-- The operations that the worker hands to other services. -/
def Operation.isElsewhere : Operation → Bool
  | .syncProfile | .refreshDailyPassTable | .refreshEventTables | .statistics
  | .scheduledCloseEvent | .scheduledCloseStatistics | .scheduledCloseFinalize => true
  | _ => false

/-- Handle a domain error; a fault still ends the program. -/
def onDomainError {α : Type} (p : Act α) (handler : DomainError → Act α) : Act α :=
  p.catching fun
    | .domain error => handler error
    | .fault fault => raise fault

/-- What the worker answers to the author, and how far it is with it. -/
structure Reply where
  text : String
  buttons : List Button
  notificationsEnabled : Bool
  delivered : Bool := false
  /-- The domain error that the command ended on, if it did. -/
  domainError : Option DomainError := none

def deliverOnce (command : OrderedRegistrationCommand) (text : String) (buttons : List Button) :
    Act Unit := do
  if command.platform = .system || command.platformUserId = 0 then
    return ()
  else
    let user ← users (.get command.platform command.platformUserId)
    if user.any (·.base.lastDeliveryOperationId = some command.operationId) then
      return ()
    else if ← deliver command.platform command.platformUserId command.operationId text buttons then
      -- marked only after the transport accepted the message
      claimDelivery command.platform command.platformUserId command.operationId buttons

def failureText (command : OrderedRegistrationCommand) (error : DomainError) : String :=
  if command.replyContext.textFailure = "" then s!"❌ {error.text}"
  else command.replyContext.textFailure

/-- The mutation of a command, or what another service does for it. -/
def mutate (command : OrderedRegistrationCommand) : Act MutationResult :=
  if command.operation.isElsewhere then do
    let (text, enabled) ← otherServices command
    return { text := text, notificationsEnabled := enabled }
  else apply bot command

/-- The text of a success. What ENLIST and CONFIRM say is decided after their writes. -/
def successText (command : OrderedRegistrationCommand) (result : MutationResult) : String :=
  if command.operation = .enlist || command.operation = .confirm ||
      command.replyContext.textSuccess = "" then result.text
  else command.replyContext.textSuccess

/-- The notices after a confirmation: its own bundle, then what the replaced game is owed. -/
def announceConfirmation (command : OrderedRegistrationCommand) (result : MutationResult) :
    Act Unit := do
  let _ ← notifyConfirmingParticipant bot command result.text command.replyContext.buttons
  match result.replacedEventId with
  | none => return ()
  | some replacedEventId =>
    let _ ← kickCancelledParticipant bot command replacedEventId (some true)
    let _ ← notifyReservePromotion bot command replacedEventId
    let _ ← notifyConfirmedLinkPromotion bot command replacedEventId
    let _ ← notifyMastersOfReplacedParticipation bot command replacedEventId

/-- The notices after a change of the roster. -/
def announceRoster (command : OrderedRegistrationCommand) : Act Unit := do
  whenever (command.operation = .removeParticipant) do
    let _ ← notifyRemovedParticipants bot command
  whenever (command.operation = .removeWaitingParticipants ||
      command.operation = .promoteReserveParticipant) do
    let _ ← notifySiftedParticipants bot command
  whenever (command.operation = .cancel || command.operation = .removeParticipant ||
      command.operation = .updateAnswer) do
    let _ ← notifyReservePromotion bot command command.eventId
    let _ ← notifyConfirmedLinkPromotion bot command command.eventId
  whenever (command.operation = .cancel) do
    let _ ← kickCancelledParticipant bot command command.eventId none
    let _ ← notifyMastersOfCancellation bot command

/-- The notices that an announced result calls for; the answer says whether the author's reply was
among them. -/
def announce (command : OrderedRegistrationCommand) (result : MutationResult) : Act Bool := do
  if command.operation.isNotification then
    let _ ← notify bot command
    return false
  else match command.operation with
    | .confirm =>
      announceConfirmation bot command result
      return true
    | .cancel | .updateAnswer | .removeParticipant | .removeWaitingParticipants
    | .promoteReserveParticipant =>
      announceRoster bot command
      return false
    | .updatePlayerAmount =>
      let _ ← notifyCapacityPromotions bot command
      return false
    | _ => return false

/-- The reply to a signup or a confirmation goes out before the masters hear of it. -/
def announceParticipation (command : OrderedRegistrationCommand) (reply : Reply) : Act Reply := do
  whenever (!reply.delivered) do
    deliverOnce command reply.text reply.buttons
  let delivered := { reply with delivered := true }
  onDomainError
    (do
      let _ ← notifyMastersOfParticipation bot command
      return delivered)
    fun error => return { delivered with text := failureText command error, domainError := some error }

/-- The mutation of a command and its notices, down to the reply that is still owed. -/
def respond (command : OrderedRegistrationCommand) : Act Reply := do
  let refusal (buttons : List Button) (enabled : Bool) (error : DomainError) : Reply :=
    { text := failureText command error
      buttons := buttons
      notificationsEnabled := enabled
      domainError := some error }
  -- profile projections are background maintenance and stay silent
  let enabled : Bool := command.operation ≠ .syncProfile && command.operation ≠ .updateProfile
  let outcome ← onDomainError (do
      let result ← mutate bot otherServices command
      return Sum.inl result)
    fun error => return Sum.inr error
  match outcome with
  | .inr error => return refusal command.replyContext.buttons enabled error
  | .inl result =>
    let buttons := result.buttons.getD command.replyContext.buttons
    let reply : Reply := {
      text := successText command result
      buttons := buttons
      notificationsEnabled := result.notificationsEnabled }
    if !result.notificationsEnabled then
      return reply
    else
      let announced ← onDomainError (do
          let delivered ← announce bot command result
          return Sum.inl delivered)
        fun error => return Sum.inr error
      match announced with
      | .inr error => return refusal buttons true error
      | .inl delivered =>
        if command.operation = .enlist || command.operation = .confirm then
          announceParticipation bot command { reply with delivered := delivered }
        else return { reply with delivered := delivered }

/-- The operations whose author is answered even when nothing changed. -/
def Operation.isStatusRequest : Operation → Bool
  | .openRegistration | .openConfirmation | .closeEvent => true
  | _ => false

/-- One attempt at a command. When it returns, the worker deletes the message. -/
def process (command : OrderedRegistrationCommand) : Act Reply := do
  let reply ← respond bot otherServices command
  whenever ((reply.notificationsEnabled || command.operation.isStatusRequest) &&
      !reply.delivered) do
    deliverOnce command reply.text reply.buttons
  return reply

/-! ## The queue -/

/-- The commands as jobs: a FIFO group of the queue is a lane. -/
def queue : Jobs ports Failure Reply OrderedRegistrationCommand String where
  program := process bot otherServices
  group := OrderedRegistrationCommand.queueGroupId

/-- The worker at some moment: the queued commands, the attempts under way, and the world. -/
abbrev Plant := Fleet ports Failure Reply OrderedRegistrationCommand String World

/-- A step of the worker, or of what surrounds it. -/
abbrev Move := Label OrderedRegistrationCommand String Input World

end LarpBot
