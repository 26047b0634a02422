import LarpBot.Adapters.DynamoEvents
import LarpBot.Application.ServiceSupport
import LarpBot.Foundation.Timestamps

/-!
# The lifecycle scheduler

The Go function `registration_notifier`, as it runs on AWS: every tick it reads the events of the
table, announces the registrations that have opened, and hands the scheduled openings of the
confirmation and the scheduled closings to the worker. It shares the rows of the events with the
repository of the bot: it changes a row with a read and an update on the condition that the row has
the revision that was read, and retries where it has not.

Times are `time.Time` instants in nanoseconds. A payload is the event that it decodes to, in which
instants have microseconds.
-/

namespace LarpBot

open Atomic Calendar

/-! ## Planned events -/

/-- An instant of Go, in nanoseconds since the epoch. -/
abbrev Nanos := Int

def nanos (t : Time) : Nanos := t * 1000

/-- What a reader with microseconds makes of an instant. -/
def micros (n : Nanos) : Time := n / 1000

structure PlannedEvent where
  eventId : EventId
  name : String
  gameDate : Option GameDate
  status : EventStatus
  registrationOpenAt : Option Nanos
  registrationRecipients : List String
  registrationCompleted : Option Nanos
  confirmationOpenAt : Option Nanos
  confirmationDeadline : Option Nanos
  scheduledCloseAt : Option Nanos
  scheduledCloseOperation : Option String
  scheduledCloseCompleted : Option Nanos
  archivedAt : Option Nanos
deriving DecidableEq

/-- `plannedEventFromPayload`. -/
def plannedEvent (payload : Event) : PlannedEvent where
  eventId := payload.eventId
  name := payload.name
  gameDate := payload.gameDate
  status := payload.status
  registrationOpenAt := payload.registrationOpenAt.map nanos
  registrationRecipients := payload.registrationOpenNotifiedRecipients
  registrationCompleted := payload.registrationOpenNotificationCompletedAt.map nanos
  confirmationOpenAt := payload.confirmationOpenAt.map nanos
  confirmationDeadline := payload.confirmationDeadline.map nanos
  scheduledCloseAt := payload.scheduledCloseAt.map nanos
  scheduledCloseOperation := payload.scheduledCloseOperationId
  scheduledCloseCompleted := payload.scheduledCloseCompletedAt.map nanos
  archivedAt := payload.archivedAt.map nanos

/-- `dispatchWindow`, five minutes. -/
def lifecycleWindow : Nanos := 300 * 10 ^ 9

def perActionLimit : Nat := 100

def dispatchCutoff (now : Nanos) : Nanos :=
  now + lifecycleWindow

def beforeDispatchCutoff (instant : Option Nanos) (cutoff : Nanos) : Bool :=
  instant.any (· < cutoff)

namespace PlannedEvent

variable (event : PlannedEvent) (cutoff : Nanos)

def registrationDue : Bool :=
  beforeDispatchCutoff event.registrationOpenAt cutoff && event.registrationCompleted.isNone &&
    event.archivedAt.isNone && event.status ≠ .closed

def confirmationDue : Bool :=
  beforeDispatchCutoff event.confirmationOpenAt cutoff && event.confirmationDeadline.isSome &&
    event.archivedAt.isNone && event.status = .created

def closingDue : Bool :=
  beforeDispatchCutoff event.scheduledCloseAt cutoff && event.scheduledCloseCompleted.isNone &&
    (event.archivedAt.isNone || event.scheduledCloseOperation.isSome)

/-- The filter of `listBefore`. -/
def due : Bool :=
  event.registrationDue cutoff || event.confirmationDue cutoff || event.closingDue cutoff

end PlannedEvent

/-- `identity.key()`. -/
def BotIdentity.key (identity : BotIdentity) : String :=
  s!"{identity.platform.value}:{identity.platformUserId}"

/-! ## Notices and commands -/

/-- The notice of one opening to one recipient. -/
structure OpeningNotice where
  eventId : EventId
  recipient : BotIdentity
  text : String
  buttons : List Button
deriving DecidableEq

/-- The id of the request to Telegram; VK gets a number that is computed from it. -/
def OpeningNotice.requestId (notice : OpeningNotice) : String :=
  s!"registration-open:{notice.eventId}:{notice.recipient.key}"

/-- `vkTextKeyboard`. -/
def OpeningNotice.textKeyboard (notice : OpeningNotice) : String :=
  "\n".intercalate (notice.text :: "" :: "Доступные команды (отправьте нужную строку сообщением):" ::
    notice.buttons.flatMap fun item =>
      if item.value = item.label then [s!"• {item.label}"]
      else [s!"• {item.label}", s!"  Команда: {item.value}"])

/-- What the scheduler sends to VK: with the keyboard, or with its commands in the text. -/
structure VkRequest where
  notice : OpeningNotice
  message : String
  keyboard : Option (List Button)
deriving DecidableEq

/-- `orderedCommand`: a command as the scheduler writes it. -/
structure ScheduledCommand where
  schemaVersion : Nat := 1
  operationId : String
  eventId : EventId
  operation : Operation
  platform : Platform := .system
  platformUserId : Nat := 0
  participantKey : Option ParticipantKey := none
  identityGroup : Option String := none
  payload : List (String × String)
  replyContext : ReplyContext := {}
  createdAt : Nanos
deriving DecidableEq

/-- What the scheduler is built with. -/
structure Scheduler where
  skipUnreachableVKRecipients : Bool := true
  registrationBacklogCutoff : Option Nanos := none
  /-- The first sixteen bytes of the digest. -/
  sha1 : List UInt8 → Vector UInt8 16

/-! ## Calls -/

inductive LifecycleCall
  | now
  | scanRows
  | getRow (eventId : EventId)
  /-- The payload of the row of its event, on the condition that the row has a revision. -/
  | updateItem (revision : Nat) (payload : Event)
  | registrationRecipients
  | sendTelegram (notice : OpeningNotice)
  | postVK (request : VkRequest)
  | publish (command : ScheduledCommand)

/-- What comes back from a request: nothing, or a status and a body, if it can be decoded. -/
inductive HttpAnswer (β : Type)
  | broken
  | answered (status : Nat) (body : Option β)
deriving DecidableEq

structure TelegramReply where
  ok : Bool
  description : String := ""
deriving DecidableEq

structure VkReply where
  errorCode : Option Int
deriving DecidableEq

inductive UpdateOutcome
  | written
  | refused
  | failed
deriving DecidableEq

/-- A request to the table that fails answers `none`. -/
@[reducible] def LifecycleCall.Ans : LifecycleCall → Type
  | now => Nanos
  | scanRows => Option (List Event)
  | getRow _ => Option (Option (Nat × Event))
  | updateItem _ _ => UpdateOutcome
  | registrationRecipients => Option (List BotIdentity)
  | sendTelegram _ => HttpAnswer TelegramReply
  | postVK _ => HttpAnswer VkReply
  | publish _ => Option Unit

/-- What becomes of a request to the table. An update may be carried out and not answered. -/
inductive StorageVerdict
  | served
  | lost
  | unanswered
deriving DecidableEq

/-- What the outside does at one call. -/
structure LifecycleInput where
  now : Nanos
  storage : StorageVerdict := .served
  recipients : Option (List BotIdentity)
  telegram : OpeningNotice → HttpAnswer TelegramReply
  vk : VkRequest → HttpAnswer VkReply
  publish : Option Unit := some ()

/-- The table, and the notices that the messengers have accepted. -/
structure LifecycleWorld where
  items : EventItems
  delivered : List OpeningNotice := []

/-- `readHTTPResponse` and the decoding of the body. -/
def HttpAnswer.body {β : Type} : HttpAnswer β → Option β
  | broken => none
  | answered status body => if 200 ≤ status ∧ status < 300 then body else none

def telegramAccepts (answer : HttpAnswer TelegramReply) : Bool :=
  answer.body.any TelegramReply.ok

def vkAccepts (answer : HttpAnswer VkReply) : Bool :=
  answer.body.any fun reply => reply.errorCode.isNone

/-- The row of an event. -/
def EventItems.row (items : EventItems) (eventId : EventId) : Option (Nat × Event) :=
  (items.find? (.event eventId)).bind fun item => item.document.asEvent.map (item.revision, ·)

/-- `UpdateItem` where it is carried out. -/
def EventItems.update (items : EventItems) (revision : Nat) (payload : Event) :
    UpdateOutcome × EventItems :=
  match transact [.put ⟨revision + 1, .event payload⟩ (.revision revision)] items with
  | (.committed, items) => (.written, items)
  | (_, items) => (.refused, items)

def LifecycleCall.perform (c : LifecycleCall) (i : LifecycleInput) (w : LifecycleWorld) :
    c.Ans × LifecycleWorld :=
  match c with
  | now => (i.now, w)
  | scanRows =>
    (if i.storage = .served then some (w.items.rows.filterMap (·.document.asEvent)) else none, w)
  | getRow eventId => (if i.storage = .served then some (w.items.row eventId) else none, w)
  | updateItem revision payload =>
    let (outcome, items) := w.items.update revision payload
    match i.storage with
    | .served => (outcome, { w with items := items })
    | .lost => (.failed, w)
    | .unanswered => (.failed, { w with items := items })
  | registrationRecipients => (i.recipients, w)
  | sendTelegram notice =>
    (i.telegram notice,
      if telegramAccepts (i.telegram notice) then { w with delivered := w.delivered ++ [notice] } else w)
  | postVK request =>
    (i.vk request,
      if vkAccepts (i.vk request) then { w with delivered := w.delivered ++ [request.notice] } else w)
  | publish _ => (i.publish, w)

@[reducible] def lifecyclePorts : Signature := ⟨LifecycleCall, LifecycleCall.Ans⟩

abbrev lifecycleHandler : Handler lifecyclePorts LifecycleWorld LifecycleInput :=
  LifecycleCall.perform

/-- An error is its text, as far as the scheduler words it. -/
abbrev LifecycleAct (α : Type) := Prog lifecyclePorts String α

namespace LifecycleAct

def one (c : LifecycleCall) : LifecycleAct c.Ans :=
  Prog.ofCall (S := lifecyclePorts) c

/-- The value, or the error that a failed request raises. -/
def present {α : Type} (text : String) : Option α → LifecycleAct α
  | some a => .done a
  | none => .fail text

end LifecycleAct

open LifecycleAct (one present)

/-! ## The repository -/

/-- `mutate`, with some attempts left; `mutation` is `none` where it changes nothing. -/
def mutateEvent (eventId : EventId) (mutation : Event → Option Event) : Nat → LifecycleAct Bool
  | 0 => .fail "unreachable DynamoDB retry loop"
  | attempts + 1 => do
    match ← present "get event" (← one (.getRow eventId)) with
    | none => .fail "event not found"
    | some (revision, payload) =>
      match mutation payload with
      | none => return false
      | some payload =>
        match ← one (.updateItem revision payload) with
        | .written => return true
        | .refused => if attempts = 0 then .fail "update event" else mutateEvent eventId mutation attempts
        | .failed => .fail "update event"

/-- The mutation of `openRegistrationNow`. -/
def openRegistrationNow (scheduledAt openedAt : Nanos) (payload : Event) : Option Event :=
  if payload.registrationOpenAt.map nanos = some scheduledAt ∧ openedAt < scheduledAt ∧
      payload.registrationOpenNotificationCompletedAt = none ∧ payload.archivedAt = none ∧
      payload.status ≠ .closed then
    some { payload with registrationOpenAt := some (micros openedAt), updatedAt := micros openedAt }
  else none

/-- The first occurrences, in order. -/
def firstOccurrences : List String → List String → List String
  | seen, [] => seen
  | seen, value :: rest =>
    if value ∈ seen then firstOccurrences seen rest else firstOccurrences (seen ++ [value]) rest

/-- The mutation of `markRegistrationDelivered`. -/
def markRegistrationDelivered (recipients : List String) (updatedAt : Nanos) (payload : Event) :
    Option Event :=
  if payload.registrationOpenNotificationCompletedAt.isSome then none
  else some { payload with
    registrationOpenNotifiedRecipients :=
      firstOccurrences [] (payload.registrationOpenNotifiedRecipients ++ recipients)
    updatedAt := micros updatedAt }

/-- The mutation of `completeRegistration`. -/
def completeRegistration (completedAt : Nanos) (payload : Event) : Option Event :=
  if payload.registrationOpenNotificationCompletedAt.isSome then none
  else some { payload with
    registrationOpenNotificationCompletedAt := some (micros completedAt)
    updatedAt := micros completedAt }

/-- The mutation of `completeRegistrationNotificationsBefore`. -/
def completeBacklog (openedBefore completedAt : Nanos) (payload : Event) : Option Event :=
  if payload.registrationOpenAt.any fun opensAt => nanos opensAt ≤ openedBefore then
    completeRegistration completedAt payload
  else none

/-- `completeRegistrationNotificationsBefore`, without its count. -/
def completeRegistrationNotificationsBefore (openedBefore completedAt : Nanos) :
    LifecycleAct Unit := do
  let rows ← present "scan events" (← one .scanRows)
  Prog.forEach (fun payload =>
      (mutateEvent payload.eventId (completeBacklog openedBefore completedAt) 4).bind fun _ => .done ())
    (rows.filter fun payload => (completeBacklog openedBefore completedAt payload).isSome)

/-- `listBefore`. -/
def listBefore (dueBefore : Nanos) (limit : Nat) : LifecycleAct (List PlannedEvent) := do
  let rows ← present "scan events" (← one .scanRows)
  return (sortBy PlannedEvent.eventId
    ((rows.map plannedEvent).filter (·.due dueBefore))).take limit

/-! ## The notifier -/

def openingNotice (event : PlannedEvent) (recipient : BotIdentity) : OpeningNotice where
  eventId := event.eventId
  recipient := recipient
  text := s!"Регистрация на игру {eventReference event.name event.gameDate} открыта."
  buttons := [mainMenuButton]

def sendTelegram (notice : OpeningNotice) : LifecycleAct Unit := do
  let reply ← present "Telegram request failed" (← one (.sendTelegram notice)).body
  if reply.ok then return ()
  else .fail "Telegram API returned an invalid success response"

def postVK (request : VkRequest) : LifecycleAct VkReply := do
  present "VK request failed" (← one (.postVK request)).body

def sendVK (skipUnreachableVKRecipients : Bool) (notice : OpeningNotice) : LifecycleAct Unit := do
  let reply ← postVK ⟨notice, notice.text, some notice.buttons⟩
  let reply ← (
    if reply.errorCode = some 912 then postVK ⟨notice, notice.textKeyboard, none⟩ else .done reply)
  match reply.errorCode with
  | none => return ()
  | some code =>
    if skipUnreachableVKRecipients && (code = 901 || code = 902) then return ()
    else .fail s!"VK API error code {code}"

/-! ## The scheduler -/

section Commands

variable (scheduler : Scheduler)

/-- `pythonUTCISO`. -/
def pythonUTCISO (value : Nanos) : String :=
  let fraction := parts 9 value
  .ofList ((clock 9 value 0).text ++
    (if fraction = 0 then [] else '.' :: digits 6 (fraction / 1000)) ++ "+00:00".toList)

/-- Two digits of the base 16. -/
def hexByte (byte : UInt8) : List Char :=
  [(byte.toNat / 16).digitChar, (byte.toNat % 16).digitChar]

/-- `uuid.NAMESPACE_URL`. -/
def namespaceURL : List UInt8 :=
  [0x6b, 0xa7, 0xb8, 0x11, 0x9d, 0xad, 0x11, 0xd1, 0x80, 0xb4, 0x00, 0xc0, 0x4f, 0xd4, 0x30, 0xc8]

/-- `operationID`. -/
def scheduledOperationId (kind : String) (eventId : EventId) (scheduledAt : Nanos) : String :=
  let name := s!"larp-bot:{kind}:{eventId}:{pythonUTCISO scheduledAt}"
  let digest := (scheduler.sha1 (namespaceURL ++ name.toUTF8.toList)).toList
  let value := (digest.set 6 (digest.getD 6 0 &&& 0x0f ||| 0x50)).set 8
    (digest.getD 8 0 &&& 0x3f ||| 0x80)
  let text (first last : Nat) := ((value.take last).drop first).flatMap hexByte
  .ofList (text 0 4 ++ '-' :: (text 4 6 ++ '-' :: (text 6 8 ++ '-' :: (text 8 10 ++
    '-' :: text 10 16))))

/-- `value.UTC().Format(time.RFC3339Nano)`. -/
def formatRFC3339Nano (value : Nanos) : String :=
  .ofList (instantText 9 (trimmedFraction 9) utcZone value 0)

/-- `scheduledConfirmationCommand`; the times are there, as the event is due. -/
def scheduledConfirmationCommand (event : PlannedEvent) (now : Nanos) : ScheduledCommand where
  operationId := scheduledOperationId scheduler "scheduled-confirmation" event.eventId
    (event.confirmationOpenAt.getD 0)
  eventId := event.eventId
  operation := .scheduledOpenConfirmation
  payload := [("deadline", formatRFC3339Nano (event.confirmationDeadline.getD 0))]
  createdAt := now

/-- `scheduledClosingCommand`. -/
def scheduledClosingCommand (event : PlannedEvent) (now : Nanos) : ScheduledCommand where
  operationId := scheduledOperationId scheduler "scheduled-close" event.eventId
    (event.scheduledCloseAt.getD 0)
  eventId := event.eventId
  operation := .scheduledCloseEvent
  payload := []
  createdAt := now

end Commands

variable (scheduler : Scheduler)

def sendRegistrationOpening (event : PlannedEvent) (recipient : BotIdentity) : LifecycleAct Unit :=
  match recipient.platform with
  | .telegram => sendTelegram (openingNotice event recipient)
  | .vk => sendVK scheduler.skipUnreachableVKRecipients (openingNotice event recipient)
  | .system => .fail s!"unsupported notification platform: {recipient.platform.value}"

/-- One of the deliveries that run side by side: the recipient, and whether there was no error. No
delivery depends on another, so they are made in turn. -/
def deliverOpening (event : PlannedEvent) (recipient : BotIdentity) :
    LifecycleAct (BotIdentity × Bool) :=
  ((sendRegistrationOpening scheduler event recipient).bind fun _ =>
    .done (recipient, true)).catching fun _ => .done (recipient, false)

/-- The keys that are stored, one delivery after the other. -/
def recordDeliveries (eventId : EventId) (now : Nanos) :
    List (BotIdentity × Bool) → List String → LifecycleAct (List String)
  | [], notified => return notified
  | (_, false) :: rest, notified => recordDeliveries eventId now rest notified
  | (recipient, true) :: rest, notified => do
    let notified := notified ++ [recipient.key]
    let _ ← mutateEvent eventId (markRegistrationDelivered notified now) 4
    recordDeliveries eventId now rest notified

def allNotified (notified : List String) (recipients : List BotIdentity) : Bool :=
  recipients.all (·.key ∈ notified)

/-- The notices of one opening. -/
def announceOpening (event : PlannedEvent) (recipients : List BotIdentity) (now : Nanos) :
    LifecycleAct Unit := do
  let pending := recipients.filter (·.key ∉ event.registrationRecipients)
  let outcomes ← Prog.traverse (deliverOpening scheduler event) pending
  let notified ← recordDeliveries event.eventId now outcomes event.registrationRecipients
  if allNotified notified recipients then
    let _ ← mutateEvent event.eventId (completeRegistration now) 4
  else return ()

/-- An opening that is imminent takes place now, if it was not rescheduled. -/
def openImminent (event : PlannedEvent) (now : Nanos) : LifecycleAct Bool :=
  match event.registrationOpenAt with
  | none => .done true
  | some opensAt =>
    if now < opensAt then mutateEvent event.eventId (openRegistrationNow opensAt now) 4 else .done true

/-- The recipients of the notices, which a run loads once. -/
def loadRecipients : Option (List BotIdentity) → LifecycleAct (List BotIdentity)
  | some recipients => .done recipients
  | none => do
    present "load registration notification recipients" (← one .registrationRecipients)

/-- The first loop of `run`, with the openings handled so far and the recipients, once loaded. -/
def announceOpenings (now cutoff : Nanos) :
    List PlannedEvent → Nat → Option (List BotIdentity) → LifecycleAct Unit
  | [], _, _ => return ()
  | event :: events, registrationCount, loaded =>
    if perActionLimit ≤ registrationCount || !event.registrationDue cutoff then
      announceOpenings now cutoff events registrationCount loaded
    else do
      if ← openImminent event now then
        let recipients ← loadRecipients loaded
        announceOpening scheduler event recipients now
        announceOpenings now cutoff events (registrationCount + 1) (some recipients)
      else announceOpenings now cutoff events registrationCount loaded

def publishCommand (command : ScheduledCommand) : LifecycleAct Unit := do
  present "publish scheduled command" (← one (.publish command))

/-- The second loop of `run`, with the commands of each kind so far. -/
def publishScheduled (now cutoff : Nanos) : List PlannedEvent → Nat → Nat → LifecycleAct Unit
  | [], _, _ => return ()
  | event :: events, confirmationCount, closingCount => do
    let confirms := decide (confirmationCount < perActionLimit) && event.confirmationDue cutoff
    let closes := decide (closingCount < perActionLimit) && event.closingDue cutoff
    let _ ← (
      if confirms then publishCommand (scheduledConfirmationCommand scheduler event now) else .done ())
    let _ ← (if closes then publishCommand (scheduledClosingCommand scheduler event now) else .done ())
    publishScheduled now cutoff events (confirmationCount + confirms.toNat)
      (closingCount + closes.toNat)

/-- `run`, without the counts that it reports. -/
def Scheduler.run (now : Nanos) : LifecycleAct Unit := do
  let _ ← (match scheduler.registrationBacklogCutoff with
    | none => .done ()
    | some openedBefore => completeRegistrationNotificationsBefore openedBefore now)
  let cutoff := dispatchCutoff now
  let events ← listBefore cutoff (3 * perActionLimit)
  announceOpenings scheduler now cutoff events 0 none
  publishScheduled scheduler now cutoff events 0 0

/-- `handleAWSSchedule`: one tick. -/
def Scheduler.tick : LifecycleAct Unit := do
  scheduler.run (← one .now)

end LarpBot
