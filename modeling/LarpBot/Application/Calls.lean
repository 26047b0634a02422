import LarpBot.Adapters.MemoryEvents
import LarpBot.Foundation.Program

/-!
# The calls of the services

The services of the worker are programs over the ports of `application/ports.py`. A `Call` is one
method call on a port with its arguments; `Call.perform` is what the call does to the stored world.
The calls on the three repositories act on their tables; what an integration (the messenger, the
table storage, the clock, the admin list) answers is chosen by the outside, one `Input` for each
call. A repository method reads the clock, so it is also given the input of its call.

Each call is atomic and another command may have written between two of them. An attempt that dies
in the middle is one that makes no further call.
-/

namespace LarpBot

open Atomic

/-! ## Failures -/

inductive DomainErrorKind
  | eventNotFound
  | registrationNotFound
  | operationNotAllowed
  | plain
deriving DecidableEq, Repr

/-- A `DomainError`: the worker reports its text to the author and finishes the command. -/
structure DomainError where
  kind : DomainErrorKind
  text : String
deriving DecidableEq, Repr

/-- What ends a program early. A fault keeps the command in its queue. -/
inductive Failure
  | domain (error : DomainError)
  | fault (fault : Fault)
deriving DecidableEq, Repr

/-! ## The world -/

/-- What the messenger did with one message. -/
inductive SendOutcome
  | accepted
  | unreachable
  | failed
deriving DecidableEq, Repr

/-- One message handed to the messenger, with what became of it. -/
structure Delivery where
  platform : Platform
  userId : Nat
  requestId : String
  text : String
  buttons : List Button
  outcome : SendOutcome
deriving DecidableEq, Repr

structure World where
  users : Users := Table.empty
  events : Events := Table.empty
  leaders : Leaders := Table.empty
  registrations : Registrations := Table.empty
  participationDeliveries : List (EventId × ParticipantKey × String) := []
  sent : List Delivery := []
  published : List OrderedRegistrationCommand := []
  kicked : List (Int × Nat × String) := []

/-! ## The calls -/

inductive UserCall
  | get (platform : Platform) (userId : Nat)
  | findLinked (user : User)
  | findTelegramByHandle (handle : String)
  | listAll
  | listPassPreferences
  | claimDelivery (platform : Platform) (userId : Nat) (operationId : OperationId)
      (buttons : List Button)
  | save (user : User)
  | updateTelegramHandle (userId : Nat) (handle : String)
  | updateTelegramLink (userId : Nat) (handle : Option String) (linkedVkId : Option Nat)
  | setLarpExperience (platform : Platform) (userId : Nat) (experienced : Bool)
  | grantLarpExperience (platform : Platform) (userId : Nat)

@[reducible] def UserCall.Ans : UserCall → Type
  | get _ _ => Option User
  | findLinked _ => Option User
  | findTelegramByHandle _ => Option TelegramUser
  | listAll => List User
  | listPassPreferences => List UserPassPreference
  | claimDelivery _ _ _ _ => Bool
  | save _ | updateTelegramHandle _ _ | updateTelegramLink _ _ _ | setLarpExperience _ _ _
  | grantLarpExperience _ _ => Unit

def UserCall.perform : (c : UserCall) → Time → Users → c.Ans × Users
  | get platform userId, _, t => (t.get platform userId, t)
  | findLinked user, _, t => (t.findLinked user, t)
  | findTelegramByHandle handle, _, t => (t.findTelegramByHandle handle, t)
  | listAll, _, t => (t.listAll, t)
  | listPassPreferences, _, t => (t.listPassPreferences, t)
  | claimDelivery platform userId operationId buttons, _, t =>
    t.claimDelivery platform userId operationId buttons
  | save user, _, t => ((), t.save user)
  | updateTelegramHandle userId handle, now, t => ((), t.updateTelegramHandle now userId handle)
  | updateTelegramLink userId handle linkedVkId, now, t =>
    ((), t.updateTelegramLink now userId handle linkedVkId)
  | setLarpExperience platform userId experienced, now, t =>
    ((), t.setLarpExperience now platform userId experienced)
  | grantLarpExperience platform userId, now, t =>
    ((), t.setLarpExperience now platform userId true)

inductive EventCall
  | get (eventId : EventId)
  | getBySignupToken (signupToken : String)
  | listPage (after : Option (Time × EventId)) (archived : Bool) (limit : Nat)
  | setStatus (eventId : EventId) (status : EventStatus)
  | openScheduledConfirmation (eventId : EventId) (opensAt deadline : Time)
  | openConfirmation (eventId : EventId) (deadline : Time)
  | setPlayerAmount (eventId : EventId) (playerAmount : Nat)
  | setRegistrationQuestion (eventId : EventId) (question : RegistrationQuestion)
  | setDetails (eventId : EventId) (name : String) (gameDate : GameDate)
  | markRegistrationsMigrated (eventId : EventId) (migratedAt : Time)
  | setPublicTable (eventId : EventId) (resourcePath publicUrl : String)
      (googleUrl : Option String)
  | setGoogleTableLinks (eventId : EventId) (masterUrl publicUrl : Option String)
  | archive (eventId : EventId) (archivedAt : Time)
  | unarchive (eventId : EventId) (updatedAt : Time)
  | delete (eventId : EventId)
  | appendConfirmedNotification (eventId : EventId) (text : String) (operationId : OperationId)
  | setReservePromotion (eventId : EventId) (operationId : OperationId)
      (participantKey : Option ParticipantKey)
  | markReservePromotionDelivered (eventId : EventId) (operationId : OperationId)
  | setConfirmedLinkPromotion (eventId : EventId) (operationId : OperationId)
      (participantKey : Option ParticipantKey)
  | markConfirmedLinkPromotionDelivered (eventId : EventId) (operationId : OperationId)
  | setParticipantRemoval (eventId : EventId) (operationId : OperationId)
      (participantKeys : List String)
  | addParticipantRemovalKeys (eventId : EventId) (operationId : OperationId)
      (participantKeys : List String)
  | markParticipantRemovalDelivered (eventId : EventId) (operationId : OperationId)
      (participantKey : String)
  | startScheduledClose (eventId : EventId) (operationId : OperationId)
  | completeScheduledCloseActions (eventId : EventId) (operationId : OperationId)
  | markScheduledCloseNotificationDelivered (eventId : EventId) (operationId : OperationId)
      (recipient : String)
  | completeScheduledCloseNotifications (eventId : EventId) (operationId : OperationId)
  | setPassTable (eventId : EventId) (resourcePath : String)

@[reducible] def EventCall.Ans : EventCall → Type
  | get _ => Option Event
  | getBySignupToken _ => Except Fault (Option Event)
  | listPage _ _ _ => Except Fault (List Event)
  | setStatus _ _ | openScheduledConfirmation _ _ _ | openConfirmation _ _ | setPlayerAmount _ _
  | setDetails _ _ _ | setPublicTable _ _ _ _ | setGoogleTableLinks _ _ _ | archive _ _
  | unarchive _ _ | delete _ | appendConfirmedNotification _ _ _ | startScheduledClose _ _
  | completeScheduledCloseActions _ _ | setPassTable _ _ => Bool
  | setRegistrationQuestion _ _ | markRegistrationsMigrated _ _ | setReservePromotion _ _ _
  | markReservePromotionDelivered _ _ | setConfirmedLinkPromotion _ _ _
  | markConfirmedLinkPromotionDelivered _ _ | setParticipantRemoval _ _ _
  | addParticipantRemovalKeys _ _ _ | markParticipantRemovalDelivered _ _ _
  | markScheduledCloseNotificationDelivered _ _ _ | completeScheduledCloseNotifications _ _ =>
    Except Fault Unit

def EventCall.perform : (c : EventCall) → Time → Events → c.Ans × Events
  | get e, _, t => (t.get e, t)
  | getBySignupToken token, _, t => (t.getBySignupToken token, t)
  | listPage after archived limit, _, t => (t.listPage after archived limit, t)
  | setStatus e status, now, t => t.setStatus now e status
  | openScheduledConfirmation e opensAt deadline, now, t =>
    t.openScheduledConfirmation now e opensAt deadline
  | openConfirmation e deadline, now, t => t.openConfirmation now e deadline
  | setPlayerAmount e amount, now, t => t.setPlayerAmount now e amount
  | setRegistrationQuestion e question, now, t => t.setRegistrationQuestion now e question
  | setDetails e name gameDate, now, t => t.setDetails now e name gameDate
  | markRegistrationsMigrated e at', _, t => t.markRegistrationsMigrated e at'
  | setPublicTable e path url google, now, t => t.setPublicTable now e path url google
  | setGoogleTableLinks e master pub, now, t => t.setGoogleTableLinks now e master pub
  | archive e at', _, t => t.archive e at'
  | unarchive e at', _, t => t.unarchive e at'
  | delete e, _, t => ((t.get e).isSome, t.erase e)
  | appendConfirmedNotification e text op, now, t => t.appendConfirmedNotification now e text op
  | setReservePromotion e op key, now, t => t.setReservePromotion now e op key
  | markReservePromotionDelivered e op, now, t => t.markReservePromotionDelivered now e op
  | setConfirmedLinkPromotion e op key, now, t => t.setConfirmedLinkPromotion now e op key
  | markConfirmedLinkPromotionDelivered e op, now, t =>
    t.markConfirmedLinkPromotionDelivered now e op
  | setParticipantRemoval e op keys, now, t => t.setParticipantRemoval now e op keys
  | addParticipantRemovalKeys e op keys, now, t => t.addParticipantRemovalKeys now e op keys
  | markParticipantRemovalDelivered e op key, now, t =>
    t.markParticipantRemovalDelivered now e op key
  | startScheduledClose e op, now, t => t.startScheduledClose now e op
  | completeScheduledCloseActions e op, now, t => t.completeScheduledCloseActions now e op
  | markScheduledCloseNotificationDelivered e op recipient, now, t =>
    t.markScheduledCloseNotificationDelivered now e op recipient
  | completeScheduledCloseNotifications e op, now, t =>
    t.completeScheduledCloseNotifications now e op
  | setPassTable e path, now, t => t.setPassTable now e path

inductive RegistrationCall
  | get (eventId : EventId) (participantKey : ParticipantKey)
  | listForEvent (eventId : EventId)
  | findByTelegramProfile (profile : String)
  | importMissing (registrations : List Registration)
  | enlist (eventId : EventId) (arguments : Registrations.EnlistArguments)
  | updateAnswer (eventId : EventId) (operationId : OperationId)
      (participantKeys : List ParticipantKey) (answerId : String)
  | updateProfile (eventId : EventId) (operationId : OperationId)
      (participantKey : ParticipantKey) (arguments : Registrations.ProfileArguments)
  | confirm (eventId : EventId) (operationId : OperationId) (participantKey : ParticipantKey)
      (characterWish : String) (replacedEventId : Option EventId)
      (replacedParticipantKey : Option ParticipantKey)
  | confirmLinked (eventId : EventId) (operationId : OperationId)
      (participantKeys : List ParticipantKey) (characterWish : String)
      (replacedEventId : Option EventId) (replacedParticipantKeys : List ParticipantKey)
  | updateCharacterWish (eventId : EventId) (operationId : OperationId)
      (participantKey : ParticipantKey) (characterWish : String)
  | updateLinkedCharacterWish (eventId : EventId) (operationId : OperationId)
      (participantKeys : List ParticipantKey) (characterWish : String)
  | updateCoPlayerWish (eventId : EventId) (operationId : OperationId)
      (participantKey : ParticipantKey) (wishPlay : String)
  | updateLinkedCoPlayerWish (eventId : EventId) (operationId : OperationId)
      (participantKeys : List ParticipantKey) (wishPlay : String)
  | cancel (eventId : EventId) (operationId : OperationId) (participantKey : ParticipantKey)
  | cancelLinked (eventId : EventId) (operationId : OperationId)
      (participantKeys : List ParticipantKey)
  | siftWaitingToEnd (eventId : EventId)
  | swapQueuePositions (eventId : EventId) (arguments : Registrations.SwapArguments)
  | remove (eventId : EventId) (participantKey : ParticipantKey)
  | deleteForEvent (eventId : EventId)

@[reducible] def RegistrationCall.Ans : RegistrationCall → Type
  | get _ _ => Option Registration
  | listForEvent _ | findByTelegramProfile _ => List Registration
  | importMissing _ | deleteForEvent _ => Unit
  | siftWaitingToEnd _ => Except Fault Unit
  | enlist _ _ | updateAnswer _ _ _ _ | updateProfile _ _ _ _ | updateLinkedCharacterWish _ _ _ _
  | updateLinkedCoPlayerWish _ _ _ _ | cancelLinked _ _ _ | swapQueuePositions _ _
  | remove _ _ => Bool
  | confirm _ _ _ _ _ _ | confirmLinked _ _ _ _ _ _ | updateCharacterWish _ _ _ _
  | updateCoPlayerWish _ _ _ _ | cancel _ _ _ => Except Fault Bool

def RegistrationCall.perform : (c : RegistrationCall) → Time → Registrations → c.Ans × Registrations
  | get e key, _, t => (t.get e key, t)
  | listForEvent e, _, t => (t.listForEvent e, t)
  | findByTelegramProfile profile, _, t => (t.findByTelegramProfile profile, t)
  | importMissing rows, _, t => ((), t.importMissing rows)
  | enlist e a, now, t => t.enlist now e a
  | updateAnswer e op keys answerId, now, t => t.updateAnswer now e op keys answerId
  | updateProfile e op key a, now, t => t.updateProfile now e op key a
  | confirm e op key wish replaced replacedKey, now, t =>
    t.confirm now e op key wish replaced replacedKey
  | confirmLinked e op keys wish replaced replacedKeys, now, t =>
    t.confirmLinked now e op keys wish replaced replacedKeys
  | updateCharacterWish e op key wish, now, t => t.updateCharacterWish now e op key wish
  | updateLinkedCharacterWish e op keys wish, now, t =>
    t.updateLinkedCharacterWish now e op keys wish
  | updateCoPlayerWish e op key wish, now, t => t.updateCoPlayerWish now e op key wish
  | updateLinkedCoPlayerWish e op keys wish, now, t => t.updateLinkedCoPlayerWish now e op keys wish
  | cancel e op key, now, t => t.cancel now e op key
  | cancelLinked e op keys, now, t => t.cancelLinked now e op keys
  | siftWaitingToEnd e, _, t => t.siftWaitingToEnd e
  | swapQueuePositions e a, now, t => t.swapQueuePositions now e a
  | remove e key, _, t => t.remove e key
  | deleteForEvent e, _, t => ((), t.deleteForEvent e)

/-- A row of a legacy workbook: `_legacy_registrations` fills the other fields with defaults. -/
structure LegacyRow where
  participantKey : ParticipantKey
  displayName : String
  larpExperience : Option Bool
  crossplay : Option Bool
  wishPlay : String
  characterWish : String
  attendanceStatus : AttendanceStatus
  lastOperationId : OperationId
  updatedAt : Time

def LegacyRow.toRegistration (eventId : EventId) (row : LegacyRow) : Registration where
  eventId := eventId
  participantKey := row.participantKey
  displayName := row.displayName
  larpExperience := row.larpExperience
  crossplay := row.crossplay
  wishPlay := row.wishPlay
  characterWish := row.characterWish
  attendanceStatus := row.attendanceStatus
  lastOperationId := row.lastOperationId
  createdAt := row.updatedAt
  updatedAt := row.updatedAt

/-- The links that a table refresh may report. -/
structure ShowcaseUrls where
  googleMaster : Option String := none
  googlePublic : Option String := none

/-- The two workbooks of the statistics. -/
inductive StatisticsBook
  | attendance
  | masters
deriving DecidableEq, Repr

/-- What the messenger says of a member of a chat. -/
structure ChatMember where
  status : String
  isMember : Bool := false
deriving DecidableEq, Repr

/-- A call on an integration. Where the answer is an option, `none` is an exception. The statistics
raise domain errors too; their `prepare` answers whether the staged edit changes the workbook. -/
inductive OutsideCall
  | now
  | isAdmin (platform : Platform) (userId : Nat)
  | send (platform : Platform) (userId : Nat) (requestId text : String) (buttons : List Button)
  | kickMember (chatId : Int) (userId : Nat) (requestId : String)
  | readLegacyRegistrations (event : Event)
  | createPublicEventWorkbook (path : String) (rows : List Registration) (playerAmount : Nat)
      (question : Option RegistrationQuestion)
  | deleteEventWorkbook (path : String)
  | replace (event : Event) (rows : List Registration)
      (needsPass : List (ParticipantKey × Option Bool))
  | passTableExists (path : String)
  | replacePassTable (path : String) (profiles : List PassDetails)
  | deletePassTable (path : String)
  | deleteAchievementPresentation (path : String)
  | createPassTable (path : String) (profiles : List PassDetails)
  | getChatMember (chatId : Int) (userId : Nat) (requestId : String)
  | prepareStatistics (book : StatisticsBook) (seasonYear : Int) (game : String)
      (names : List String)
  | commitStatistics (book : StatisticsBook) (changed : Bool)
  | hasAnyPlayer (names : List String)
  | linkStatistics (book : StatisticsBook)
  | publish (command : OrderedRegistrationCommand)
  | resolveUserId (vkUrl : String)

@[reducible] def OutsideCall.Ans : OutsideCall → Type
  | now => Time
  | isAdmin _ _ => Option Bool
  | send _ _ _ _ _ => SendOutcome
  | kickMember _ _ _ => Option Bool
  | readLegacyRegistrations _ => Option (List LegacyRow)
  | createPublicEventWorkbook _ _ _ _ => Option (Option String)
  | deleteEventWorkbook _ | replacePassTable _ _ | deletePassTable _
  | deleteAchievementPresentation _ => Option Unit
  | replace _ _ _ => Option (Option ShowcaseUrls)
  | passTableExists _ => Option Bool
  | createPassTable _ _ => Option (Option String)
  | getChatMember _ _ _ => Option (Option ChatMember)
  | prepareStatistics _ _ _ _ | commitStatistics _ _ | hasAnyPlayer _ => Except Failure Bool
  | linkStatistics _ => Except Failure String
  | publish _ => Option Unit
  | resolveUserId _ => Option (Option Nat)

/-- What the outside says at one call. -/
abbrev Input := (c : OutsideCall) → c.Ans

inductive Call
  | users (call : UserCall)
  | events (call : EventCall)
  | listLeaders (eventId : EventId)
  | registrations (call : RegistrationCall)
  | participationNotificationDelivered (eventId : EventId) (participantKey : ParticipantKey)
      (requestId : String)
  | markParticipationNotificationDelivered (eventId : EventId) (participantKey : ParticipantKey)
      (requestId : String)
  | outside (call : OutsideCall)

@[reducible] def Call.Ans : Call → Type
  | users c => c.Ans
  | events c => c.Ans
  | listLeaders _ => List BotIdentity
  | registrations c => c.Ans
  | participationNotificationDelivered _ _ _ => Bool
  | markParticipationNotificationDelivered _ _ _ => Unit
  | outside c => c.Ans

/-- The trace that a call on an integration leaves in the world. -/
def OutsideCall.record : (c : OutsideCall) → c.Ans → World → World
  | send platform userId requestId text buttons, outcome, w =>
    { w with sent := w.sent ++ [⟨platform, userId, requestId, text, buttons, outcome⟩] }
  | kickMember chatId userId requestId, some true, w =>
    { w with kicked := w.kicked ++ [(chatId, userId, requestId)] }
  | publish command, some (), w => { w with published := w.published ++ [command] }
  | _, _, w => w

@[simp] theorem OutsideCall.registrations_record (c : OutsideCall) (a : c.Ans) (w : World) :
    (c.record a w).registrations = w.registrations := by
  unfold OutsideCall.record
  split <;> rfl

@[simp] theorem OutsideCall.events_record (c : OutsideCall) (a : c.Ans) (w : World) :
    (c.record a w).events = w.events := by
  unfold OutsideCall.record
  split <;> rfl

/-- Deleting an event also drops its leaders. -/
def EventCall.leadersAfter : EventCall → Leaders → Leaders
  | delete e, t => t.ofEventRemoved e
  | _, t => t

def Call.perform : (c : Call) → Input → World → c.Ans × World
  | users c, i, w =>
    let answer := c.perform (i .now) w.users
    (answer.1, { w with users := answer.2 })
  | events c, i, w =>
    let answer := c.perform (i .now) w.events
    (answer.1, { w with events := answer.2, leaders := c.leadersAfter w.leaders })
  | listLeaders e, _, w => (w.leaders.listLeaders e, w)
  | registrations c, i, w =>
    let answer := c.perform (i .now) w.registrations
    (answer.1, { w with registrations := answer.2 })
  | participationNotificationDelivered e key request, _, w =>
    (decide ((e, key, request) ∈ w.participationDeliveries), w)
  | markParticipationNotificationDelivered e key request, _, w =>
    ((), { w with participationDeliveries := (e, key, request) :: w.participationDeliveries })
  | outside c, i, w => (i c, c.record (i c) w)

/-- The ports of the services as one signature. -/
@[reducible] def ports : Signature := ⟨Call, Call.Ans⟩

/-- The handler that the worker's runtime is. -/
@[reducible] def storage : Handler ports World Input := Call.perform

/-- An asynchronous method of a service. -/
abbrev Act (α : Type) := Prog ports Failure α

namespace Act

/-- One call as a program of its own. -/
def one (c : Call) : Act c.Ans :=
  Prog.ofCall (S := ports) c

def users (c : UserCall) : Act c.Ans := one (.users c)
def events (c : EventCall) : Act c.Ans := one (.events c)
def listLeaders (eventId : EventId) : Act (List BotIdentity) := one (.listLeaders eventId)
def registrations (c : RegistrationCall) : Act c.Ans := one (.registrations c)
def outside (c : OutsideCall) : Act c.Ans := one (.outside c)

/-- `raise OperationNotAllowed(text)`. -/
def notAllowed {α : Type} (text : String) : Act α :=
  .fail (.domain ⟨.operationNotAllowed, text⟩)

/-- `if c: raise OperationNotAllowed(text)`. -/
def refuseIf (c : Bool) (text : String) : Act Unit :=
  if c then notAllowed text else .done ()

/-- `raise DomainError(text)`. -/
def domainError {α : Type} (text : String) : Act α :=
  .fail (.domain ⟨.plain, text⟩)

/-- `if c: raise DomainError(text)`. -/
def rejectIf (c : Bool) (text : String) : Act Unit :=
  if c then domainError text else .done ()

/-- `if c: await p`. -/
def whenever (c : Bool) (p : Act Unit) : Act Unit :=
  if c then p else .done ()

/-- `raise EventNotFound(text)`. -/
def eventNotFound {α : Type} (text : String) : Act α :=
  .fail (.domain ⟨.eventNotFound, text⟩)

def raise {α : Type} (fault : Fault) : Act α :=
  .fail (.fault fault)

/-- The value of a repository method, or the exception it raised. -/
def value {α : Type} : Except Fault α → Act α
  | .ok a => .done a
  | .error fault => raise fault

/-- The value of an integration that raises domain errors too. -/
def answered {α : Type} : Except Failure α → Act α
  | .ok a => .done a
  | .error failure => .fail failure

/-- The value of an integration, or the exception it raised. -/
def present {α : Type} (integration : String) : Option α → Act α
  | some a => .done a
  | none => raise (.integration integration)

end Act

end LarpBot
