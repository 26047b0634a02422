import LarpBot.Adapters.DynamoEvents
import LarpBot.Adapters.YdbRegistrations

/-!
# The lifecycle of an event on YDB

The methods of `YdbEventRepository` that move an event through its lifecycle, beside those of the
repository on DynamoDB. Most of them are one update with a guard; the two of a scheduled closing read
the event first and answer without asking what the update has touched.
-/

namespace LarpBot

open Atomic

inductive LifecycleMethod
  | setStatus (eventId : EventId) (status : EventStatus)
  | setRegistrationOpenAt (eventId : EventId) (opensAt : Option Time)
  | setConfirmationSchedule (eventId : EventId) (opensAt deadline : Option Time)
  | openConfirmation (eventId : EventId) (deadline : Time)
  | openScheduledConfirmation (eventId : EventId) (opensAt deadline : Time)
  | setScheduledCloseAt (eventId : EventId) (closesAt : Option Time)
  | startScheduledClose (eventId : EventId) (operationId : OperationId) (startedAt : Time)
  | completeScheduledCloseActions (eventId : EventId) (operationId : OperationId) (completedAt : Time)
  | archive (eventId : EventId) (archivedAt : Time)
  | unarchive (eventId : EventId) (updatedAt : Time)

namespace Events

/-- `set_confirmation_schedule` -/
def setConfirmationSchedule (events : Events) (now : Time) (eventId : EventId)
    (opensAt deadline : Option Time) : Except Fault Bool × Events :=
  if opensAt.isNone ≠ deadline.isNone then
    (.error (.valueError "confirmation opening and deadline must be set together"), events)
  else
    let written := events.when eventId
      (fun event => event.confirmationOpenAt ≠ opensAt || event.confirmationDeadline ≠ deadline)
      (fun event => { event with
        confirmationOpenAt := opensAt, confirmationDeadline := deadline, updatedAt := now }) fun _ => rfl
    (.ok written.1, written.2)

end Events

namespace YdbEvents

variable (events : Events) (now : Time)

/-- `event_id = $event_id AND …` -/
def guarded (eventId : EventId) (condition : Event → Truth) (event : Event) : Truth :=
  (Truth.is (event.eventId = eventId)).and (condition event)

/-- An update of one event that returns whether it has touched the row. -/
def update (times : List Time) (eventId : EventId) (condition : Event → Truth) (f : Event → Event)
    (hf : ∀ event, (f event).eventId = event.eventId) : Except Fault Bool × Events :=
  ydbQuery times events (events.touches (guarded eventId condition))
    (Table.update events (guarded eventId condition) f hf)

/-- No update writes the identifier. -/
theorem eventId_kept (event : Event) : event.eventId = event.eventId := rfl

def setStatus (eventId : EventId) (status : EventStatus) : Except Fault Bool × Events :=
  update events [now] eventId (fun event => .is (event.status ≠ status))
    (fun event => { event with status := status, updatedAt := now }) eventId_kept

def setRegistrationOpenAt (eventId : EventId) (opensAt : Option Time) : Except Fault Bool × Events :=
  update events (opensAt.toList ++ [now]) eventId
    (fun event => .differs event.registrationOpenAt opensAt)
    (fun event => { event with
      registrationOpenAt := opensAt
      registrationOpenNotifiedRecipients := []
      registrationOpenNotificationCompletedAt := none
      updatedAt := now }) eventId_kept

def setConfirmationSchedule (eventId : EventId) (opensAt deadline : Option Time) :
    Except Fault Bool × Events :=
  if opensAt.isNone ≠ deadline.isNone then
    (.error (.valueError "confirmation opening and deadline must be set together"), events)
  else
    update events (opensAt.toList ++ deadline.toList ++ [now]) eventId
      (fun event => (Truth.differs event.confirmationOpenAt opensAt).or
        (.differs event.confirmationDeadline deadline))
      (fun event => { event with
        confirmationOpenAt := opensAt, confirmationDeadline := deadline, updatedAt := now }) eventId_kept

def openConfirmation (eventId : EventId) (deadline : Time) : Except Fault Bool × Events :=
  update events [deadline, now] eventId
    (fun event => (Truth.is (event.status ≠ .confirmationOpen)).or
      ((Truth.isNull event.confirmationDeadline).or
        (.unequal event.confirmationDeadline (some deadline))))
    (fun event => { event with
      status := .confirmationOpen, confirmationOpenAt := none,
      confirmationDeadline := some deadline, updatedAt := now }) eventId_kept

/-- `open_scheduled_confirmation` takes a confirmation that is open already for its own. -/
def openScheduledConfirmation (eventId : EventId) (opensAt deadline : Time) :
    Except Fault Bool × Events :=
  update events [opensAt, deadline, now] eventId
    (fun event => (Truth.isNull event.archivedAt).and
      ((Truth.equal event.confirmationDeadline (some deadline)).and
        (((Truth.is (event.status = .created)).and (.equal event.confirmationOpenAt (some opensAt))).or
          ((Truth.is (event.status = .confirmationOpen)).and (.isNull event.confirmationOpenAt)))))
    (fun event => { event with
      status := .confirmationOpen, confirmationOpenAt := none, updatedAt := now }) eventId_kept

def setScheduledCloseAt (eventId : EventId) (closesAt : Option Time) : Except Fault Bool × Events :=
  update events (closesAt.toList ++ [now]) eventId
    (fun event => (Truth.isNull event.scheduledCloseOperationId).and
      (.differs event.scheduledCloseAt closesAt))
    (fun event => { event with
      scheduledCloseAt := closesAt
      scheduledCloseOperationId := none
      scheduledCloseNotifiedRecipients := []
      scheduledCloseCompletedAt := none
      updatedAt := now }) eventId_kept

def startScheduledClose (eventId : EventId) (operationId : OperationId) (startedAt : Time) :
    Except Fault Bool × Events :=
  match events.get eventId with
  | none => (.ok false, events)
  | some event =>
    if event.scheduledCloseOperationId = some operationId then (.ok true, events)
    else if event.archivedAt.isSome || event.scheduledCloseOperationId.isSome then (.ok false, events)
    else
      let started := update events [startedAt] eventId
        (fun event => (Truth.isNull event.archivedAt).and ((Truth.notNull event.scheduledCloseAt).and
          ((Truth.isNull event.scheduledCloseOperationId).and (.isNull event.scheduledCloseCompletedAt))))
        (fun event => { event with
          status := .closed
          scheduledCloseOperationId := some operationId
          updatedAt := startedAt }) eventId_kept
      (started.1.map fun _ => true, started.2)

def completeScheduledCloseActions (eventId : EventId) (operationId : OperationId)
    (completedAt : Time) : Except Fault Bool × Events :=
  match events.get eventId with
  | none => (.ok false, events)
  | some event =>
    if event.scheduledCloseOperationId ≠ some operationId then (.ok false, events)
    else if event.archivedAt.isSome then (.ok true, events)
    else
      let completed := update events [completedAt] eventId
        (fun event => (Truth.isNull event.archivedAt).and
          ((Truth.equal event.scheduledCloseOperationId (some operationId)).and
            (.isNull event.scheduledCloseCompletedAt)))
        (fun event => { event with
          status := .closed, archivedAt := some completedAt, updatedAt := completedAt }) eventId_kept
      (completed.1.map fun _ => true, completed.2)

def archive (eventId : EventId) (archivedAt : Time) : Except Fault Bool × Events :=
  update events [archivedAt] eventId (fun event => .isNull event.archivedAt)
    (fun event => { event with
      status := .closed, archivedAt := some archivedAt, updatedAt := archivedAt }) eventId_kept

def unarchive (eventId : EventId) (updatedAt : Time) : Except Fault Bool × Events :=
  update events [updatedAt] eventId (fun event => .notNull event.archivedAt)
    (fun event => { event with archivedAt := none, updatedAt := updatedAt }) eventId_kept

end YdbEvents

namespace LifecycleMethod

abbrev signature : Signature :=
  ⟨LifecycleMethod, fun _ => Except Fault Bool⟩

/-- A method that raises nothing. -/
def answered (written : Bool × Events) : Except Fault Bool × Events :=
  (.ok written.1, written.2)

/-- `DynamoEventRepository`: the methods of the memory repository, and its own `set_status`, which
leaves the leaders of the events alone. -/
def dynamo : Handler signature Events Time
  | setStatus eventId status, now, events =>
    let written := EventMemory.setStatus ⟨events, .empty⟩ now eventId status
    answered (written.1, written.2.rows)
  | setRegistrationOpenAt eventId opensAt, now, events =>
    answered (events.setRegistrationOpenAt now eventId opensAt)
  | setConfirmationSchedule eventId opensAt deadline, now, events =>
    events.setConfirmationSchedule now eventId opensAt deadline
  | openConfirmation eventId deadline, now, events => answered (events.openConfirmation now eventId deadline)
  | openScheduledConfirmation eventId opensAt deadline, now, events =>
    answered (events.openScheduledConfirmation now eventId opensAt deadline)
  | setScheduledCloseAt eventId closesAt, now, events =>
    answered (events.setScheduledCloseAt now eventId closesAt)
  | startScheduledClose eventId operationId startedAt, _, events =>
    answered (events.startScheduledClose startedAt eventId operationId)
  | completeScheduledCloseActions eventId operationId completedAt, _, events =>
    answered (events.completeScheduledCloseActions completedAt eventId operationId)
  | archive eventId archivedAt, _, events => answered (events.archive eventId archivedAt)
  | unarchive eventId updatedAt, _, events => answered (events.unarchive eventId updatedAt)

/-- `YdbEventRepository` -/
def ydb : Handler signature Events Time
  | setStatus eventId status, now, events => YdbEvents.setStatus events now eventId status
  | setRegistrationOpenAt eventId opensAt, now, events =>
    YdbEvents.setRegistrationOpenAt events now eventId opensAt
  | setConfirmationSchedule eventId opensAt deadline, now, events =>
    YdbEvents.setConfirmationSchedule events now eventId opensAt deadline
  | openConfirmation eventId deadline, now, events =>
    YdbEvents.openConfirmation events now eventId deadline
  | openScheduledConfirmation eventId opensAt deadline, now, events =>
    YdbEvents.openScheduledConfirmation events now eventId opensAt deadline
  | setScheduledCloseAt eventId closesAt, now, events =>
    YdbEvents.setScheduledCloseAt events now eventId closesAt
  | startScheduledClose eventId operationId startedAt, _, events =>
    YdbEvents.startScheduledClose events eventId operationId startedAt
  | completeScheduledCloseActions eventId operationId completedAt, _, events =>
    YdbEvents.completeScheduledCloseActions events eventId operationId completedAt
  | archive eventId archivedAt, _, events => YdbEvents.archive events eventId archivedAt
  | unarchive eventId updatedAt, _, events => YdbEvents.unarchive events eventId updatedAt

end LifecycleMethod

end LarpBot
