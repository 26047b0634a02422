import LarpBot.Application.Statistics
import LarpBot.Application.Worker

/-!
# Scheduled closing

The automatic close of a game in three stages, each a command of its own: the game is closed, it is
entered in the statistics, and it is archived and its masters are told. The stages wait in two
groups of the queue, and each publishes the next one. The identifier of a stage is derived from the
schedule, so a stage whose schedule has changed since is recognised as stale.

The dispatcher that queues the first stage is the timer of `functions/registration_notifier`.
-/

namespace LarpBot

open Atomic Act

variable (bot : Deployment)

/-! ## The dispatcher -/

/-- `dispatchWindow`, five minutes. -/
def dispatchWindow : Time := 300000000

/-- `ScheduledGameClosingDispatcher.operation_id`. -/
def closingOperationId (eventId : EventId) (scheduledCloseAt : Time) : OperationId :=
  bot.uuid5 s!"larp-bot:scheduled-close:{eventId}:{utcIsoformat scheduledCloseAt}"

/-- `stage_operation_id`. -/
def stageOperationId (operationId : OperationId) (stage : String) : OperationId :=
  bot.uuid5 s!"larp-bot:{operationId}:{stage}"

/-- `closingDue` at the cutoff of a dispatcher run. -/
def closingDue (event : Event) (cutoff : Time) : Bool :=
  event.scheduledCloseAt.any (· < cutoff) && event.scheduledCloseCompletedAt.isNone &&
    (event.archivedAt.isNone || event.scheduledCloseOperationId.isSome)

/-! ## The stages -/

inductive ClosingStage
  | close
  | statistics
  | finalize
deriving DecidableEq, Repr

def ClosingStage.operation : ClosingStage → Operation
  | close => .scheduledCloseEvent
  | statistics => .scheduledCloseStatistics
  | finalize => .scheduledCloseFinalize

/-- `_command`, and the command that the dispatcher publishes. -/
def closingCommand (eventId : EventId) (operationId : OperationId) (stage : ClosingStage) :
    OrderedRegistrationCommand where
  operationId := operationId
  eventId := eventId
  operation := stage.operation
  platform := .system
  platformUserId := 0
  payload_fits := by cases stage <;> rfl
  participant_named := by cases stage <;> decide
  group_fits := by cases stage <;> rfl

/-- The identifier that a stage of the close `operationId` must carry. -/
def expectedId (operationId : OperationId) : Operation → Option OperationId
  | .scheduledCloseEvent => some operationId
  | .scheduledCloseStatistics => some (stageOperationId bot operationId "statistics")
  | .scheduledCloseFinalize => some (stageOperationId bot operationId "finalize")
  | _ => none

/-- `_event`: the game and the operation of its close, if the command still belongs to it. -/
def closingEvent (command : OrderedRegistrationCommand) : Act (Event × OperationId) := do
  match ← events (.get command.eventId) with
  | none => domainError "Игра уже удалена"
  | some event =>
    match event.scheduledCloseAt with
    | none => domainError "Для игры не запланировано закрытие"
    | some closesAt =>
      let operationId := closingOperationId bot event.eventId closesAt
      if expectedId bot operationId command.operation ≠ some command.operationId then
        domainError "Запланированное закрытие было изменено или отменено"
      else return (event, operationId)

def scheduleNext (eventId : EventId) (operationId : OperationId) (stage : ClosingStage) :
    Act Unit := do
  let name := if stage = .statistics then "statistics" else "finalize"
  let command := closingCommand eventId (stageOperationId bot operationId name) stage
  present "publish" (← outside (.publish command))

def alreadyClosed : String := "Запланированное закрытие уже выполнено"

/-- The end of `_start`, on the stored event of a close that has started. -/
def scheduleAfterStart (event : Event) (operationId : OperationId) : Act String := do
  scheduleNext bot event.eventId operationId
    (if event.archivedAt.isSome then .finalize else .statistics)
  return "Регистрация закрыта; добавление в статистику поставлено в очередь"

def startClosing (command : OrderedRegistrationCommand) : Act String := do
  let (event, operationId) ← closingEvent bot command
  if event.scheduledCloseCompletedAt.isSome then
    return alreadyClosed
  match event.scheduledCloseOperationId with
  | some started =>
    if started ≠ operationId then
      raise (.runtimeError "scheduled close operation does not match persisted state")
    else scheduleAfterStart bot event operationId
  | none =>
    if event.archivedAt.isSome then
      return "Игра уже архивирована вручную"
    if !(← events (.startScheduledClose event.eventId operationId)) then
      raise (.runtimeError "scheduled close start was not persisted")
    else match ← events (.get event.eventId) with
      | none => return "Игра удалена после начала запланированного закрытия"
      | some refreshed => scheduleAfterStart bot refreshed operationId

def addStatistics (command : OrderedRegistrationCommand) : Act String := do
  let (event, operationId) ← closingEvent bot command
  if event.scheduledCloseCompletedAt.isSome then
    return alreadyClosed
  if event.scheduledCloseOperationId ≠ some operationId then
    raise (.runtimeError "scheduled close has not started")
  else
    whenever event.archivedAt.isNone do
      let _ ← addGame bot event.eventId command.operationId
    scheduleNext bot event.eventId operationId .finalize
    return "Игра добавлена в статистику; архивация поставлена в очередь"

/-- `_recipient`. -/
def closingRecipient (identity : BotIdentity) : String :=
  s!"{identity.platform.value}:{identity.platformUserId}"

def closingText (event : Event) : String :=
  s!"Автоматическое закрытие игры {eventReference event.name event.gameDate} выполнено:\n\n" ++
    "— регистрация закрыта;\n— игра добавлена в статистику посещений;\n— игра архивирована."

/-- The masters who have not been told yet; `notified` are those who have. -/
def notifyClosed (event : Event) (operationId : OperationId) (notified : List String) :
    List BotIdentity → Act Unit
  | [] => return ()
  | leader :: rest => do
    let recipient := closingRecipient leader
    if recipient ∈ notified ∨ leader.platform = .system then
      notifyClosed event operationId notified rest
    else
      let _ ← deliver leader.platform leader.platformUserId s!"{operationId}:{recipient}"
        (closingText event) [mainMenuButton]
      value (← events (.markScheduledCloseNotificationDelivered event.eventId operationId recipient))
      notifyClosed event operationId (recipient :: notified) rest

def finalizeClosing (command : OrderedRegistrationCommand) : Act String := do
  let (event, operationId) ← closingEvent bot command
  if event.scheduledCloseCompletedAt.isSome then
    return alreadyClosed
  if event.scheduledCloseOperationId ≠ some operationId then
    raise (.runtimeError "scheduled close has not started")
  else if !(← events (.completeScheduledCloseActions event.eventId operationId)) then
    raise (.runtimeError "scheduled close actions were not persisted")
  else match ← events (.get event.eventId) with
    | none => return "Игра удалена после запланированного закрытия"
    | some event =>
      refreshDailyPassTable bot event.gameDate
      let leaders ← listLeaders event.eventId
      notifyClosed event operationId event.scheduledCloseNotifiedRecipients leaders
      value (← events (.completeScheduledCloseNotifications event.eventId operationId))
      return "Игра закрыта, добавлена в статистику и архивирована; мастера уведомлены"

/-! ## The services behind the worker -/

/-- What the worker does for the operations that are not ordered mutations. The tables that a master
asks for are `tables`. -/
def services (tables : OtherServices) : OtherServices := fun command =>
  match command.operation with
  | .scheduledCloseEvent => do return (← startClosing bot command, false)
  | .scheduledCloseStatistics => do return (← addStatistics bot command, false)
  | .scheduledCloseFinalize => do return (← finalizeClosing bot command, false)
  | .statistics => do return (← applyStatistics bot command, true)
  | .syncProfile => do return (← syncProfile bot command, false)
  | _ => tables command

end LarpBot
