import LarpBot.Adapters.MemoryRegistrations
import Mathlib

/-!
# The event and the user repository

`MemoryEventRepository` and `MemoryUserRepository`, one function for each method that the modelled
services call. A writer of one event is `Table.modify` on its row; the ones that the source writes
as `self.rows[event_id]` raise a `KeyError` on a missing event (`existing`), the ones that use
`self.rows.get` answer `False`.
-/

namespace LarpBot

open Atomic

/-- `MAX_EVENT_PAGE_SIZE`. -/
def maxEventPageSize : Nat := 10

abbrev Events := Table Event.eventId
abbrev Users := Table User.identity

/-- The leader sets of all events: each pair at most once. -/
abbrev Leaders := Table (id : EventId × BotIdentity → EventId × BotIdentity)

namespace Leaders

/-- `list_leaders`: the leaders of an event by platform name and number. -/
def listLeaders (leaders : Leaders) (eventId : EventId) : List BotIdentity :=
  sortBy (fun identity => toLex (identity.platform.value, identity.platformUserId))
    ((leaders.rows.filter fun entry => entry.1 = eventId).map Prod.snd)

def ofEventRemoved (leaders : Leaders) (eventId : EventId) : Leaders :=
  leaders.filter fun entry => entry.1 ≠ eventId

end Leaders

namespace Events

variable (events : Events) (now : Time)

def get (eventId : EventId) : Option Event :=
  events.find? eventId

/-- Rewrite an event that the method reads as `self.rows[event_id]`. -/
def existing (eventId : EventId) (f : Event → Event) (hf : ∀ e, (f e).eventId = e.eventId) :
    Except Fault Unit × Events :=
  match events.get eventId with
  | none => (.error .keyError, events)
  | some _ => (.ok (), events.modify eventId f hf)

/-- Rewrite an event that passes a test; the answer says whether it did. -/
def when (eventId : EventId) (p : Event → Bool) (f : Event → Event)
    (hf : ∀ e, (f e).eventId = e.eventId) : Bool × Events :=
  match events.get eventId with
  | none => (false, events)
  | some event => if p event then (true, events.modify eventId f hf) else (false, events)

/-- Rewrite an event in any case; the answer says whether a test held before. -/
def always (eventId : EventId) (changed : Event → Bool) (f : Event → Event)
    (hf : ∀ e, (f e).eventId = e.eventId) : Bool × Events :=
  match events.get eventId with
  | none => (false, events)
  | some event => (changed event, events.modify eventId f hf)

section Stored

variable {events : Events} {eventId : EventId} {event : Event} {f : Event → Event}
  {hf : ∀ e, (f e).eventId = e.eventId}

theorem eventId_of_get (h : events.get eventId = some event) : event.eventId = eventId :=
  Table.key_of_find? h

theorem get_modify (h : events.get eventId = some event) :
    Events.get (events.modify eventId f hf) eventId = some (f event) := by
  rw [get] at h
  rw [get, Table.find?_modify_self, h, Option.map_some]

/-- Rewriting an event neither adds nor removes one. -/
@[simp] theorem isSome_get_modify (hf : ∀ e, (f e).eventId = e.eventId) {e : EventId} :
    (Events.get (events.modify eventId f hf) e).isSome = (events.get e).isSome := by
  rw [get, Table.find?_modify]
  split
  · next h => rw [h, Option.isSome_map, get]
  · rfl

@[simp] theorem isSome_get_existing {e : EventId} :
    (Events.get (events.existing eventId f hf).2 e).isSome = (events.get e).isSome := by
  unfold existing
  split
  · rfl
  · exact isSome_get_modify hf

@[simp] theorem isSome_get_when {e : EventId} {p : Event → Bool} :
    (Events.get (events.when eventId p f hf).2 e).isSome = (events.get e).isSome := by
  unfold Events.when
  split
  · rfl
  · split
    · exact isSome_get_modify hf
    · rfl

@[simp] theorem isSome_get_always {e : EventId} {changed : Event → Bool} :
    (Events.get (events.always eventId changed f hf).2 e).isSome = (events.get e).isSome := by
  unfold always
  split
  · rfl
  · exact isSome_get_modify hf

theorem existing_of_get (h : events.get eventId = some event) :
    events.existing eventId f hf = (.ok (), events.modify eventId f hf) := by
  rw [existing, h]

theorem when_of_get {p : Event → Bool} (h : events.get eventId = some event) (hp : p event) :
    events.when eventId p f hf = (true, events.modify eventId f hf) := by
  simp only [when, h, hp, if_true]

theorem always_of_get {changed : Event → Bool} (h : events.get eventId = some event) :
    events.always eventId changed f hf = (changed event, events.modify eventId f hf) := by
  rw [always, h]

end Stored

def getBySignupToken (signupToken : String) : Except Fault (Option Event) :=
  match events.rows.filter fun event => event.signupToken = some signupToken with
  | [] => .ok none
  | [event] => .ok (some event)
  | _ => .error (.runtimeError "duplicate game signup token")

def setStatus (eventId : EventId) (status : EventStatus) : Bool × Events :=
  events.always eventId (fun event => event.status ≠ status)
    (fun event => { event with status := status, updatedAt := now }) fun _ => rfl

/-- `set_registration_open_at`: a new opening is announced again. -/
def setRegistrationOpenAt (eventId : EventId) (opensAt : Option Time) : Bool × Events :=
  events.when eventId (fun event => event.registrationOpenAt ≠ opensAt)
    (fun event => { event with
      registrationOpenAt := opensAt
      registrationOpenNotifiedRecipients := []
      registrationOpenNotificationCompletedAt := none
      updatedAt := now }) fun _ => rfl

def bindTelegramChat (eventId : EventId) (chatId : Int) : Bool × Events :=
  match events.get eventId with
  | none => (false, events)
  | some event =>
    if event.archivedAt.isSome then (false, events)
    else match event.telegramChatId with
      | some bound => (decide (bound = chatId), events)
      | none =>
        if events.rows.any fun other => other.telegramChatId = some chatId then (false, events)
        else (true, events.modify eventId
          (fun event => { event with telegramChatId := some chatId, updatedAt := now }) fun _ => rfl)

def setTelegramChatInviteLink (eventId : EventId) (chatId : Int) (inviteLink : String) :
    Bool × Events :=
  events.when eventId
    (fun event => event.telegramChatId = some chatId && event.telegramChatInviteLink.isNone)
    (fun event => { event with telegramChatInviteLink := some inviteLink, updatedAt := now })
    fun _ => rfl

def openScheduledConfirmation (eventId : EventId) (opensAt deadline : Time) : Bool × Events :=
  events.when eventId
    (fun event => event.archivedAt.isNone && event.status = .created &&
      event.confirmationOpenAt = some opensAt && event.confirmationDeadline = some deadline)
    (fun event => { event with
      status := .confirmationOpen, confirmationOpenAt := none, updatedAt := now }) fun _ => rfl

def openConfirmation (eventId : EventId) (deadline : Time) : Bool × Events :=
  events.always eventId
    (fun event => event.status ≠ .confirmationOpen || event.confirmationDeadline ≠ some deadline)
    (fun event => { event with
      status := .confirmationOpen, confirmationOpenAt := none,
      confirmationDeadline := some deadline, updatedAt := now }) fun _ => rfl

def setPlayerAmount (eventId : EventId) (playerAmount : Nat) : Bool × Events :=
  events.always eventId (fun event => event.playerAmount ≠ playerAmount)
    (fun event => { event with playerAmount := playerAmount, updatedAt := now }) fun _ => rfl

def setRegistrationQuestion (eventId : EventId) (question : RegistrationQuestion) :
    Except Fault Unit × Events :=
  events.existing eventId (fun event => { event with
    registrationQuestion := some question
    playerAmount := (question.options.map AnswerOption.playerAmount).sum
    updatedAt := now }) fun _ => rfl

def setDetails (eventId : EventId) (name : String) (gameDate : GameDate) : Bool × Events :=
  events.when eventId (fun event => event.name ≠ name || event.gameDate ≠ some gameDate)
    (fun event => { event with name := name, gameDate := some gameDate, updatedAt := now })
    fun _ => rfl

def markRegistrationsMigrated (eventId : EventId) (migratedAt : Time) :
    Except Fault Unit × Events :=
  events.existing eventId (fun event => { event with
    registrationsMigratedAt := some migratedAt, updatedAt := migratedAt }) fun _ => rfl

def setPublicTable (eventId : EventId) (resourcePath publicUrl : String)
    (googleUrl : Option String) : Bool × Events :=
  events.when eventId (fun event => event.publicTablePublicUrl.isNone)
    (fun event => { event.withPublicTable resourcePath publicUrl googleUrl with
      updatedAt := now }) fun _ => rfl

/-- `value or fallback` for an optional text: the empty text counts as absent. -/
def orElse (value fallback : Option String) : Option String :=
  match value with
  | some "" => fallback
  | some text => some text
  | none => fallback

/-- `set_google_table_links` with the two links that a table refresh passes. -/
def setGoogleTableLinks (eventId : EventId) (masterUrl publicUrl : Option String) :
    Bool × Events :=
  events.always eventId (fun _ => true)
    (fun event => { event with
      masterTableGoogleUrl := orElse masterUrl event.masterTableGoogleUrl
      publicTableGoogleUrl := orElse publicUrl event.publicTableGoogleUrl
      updatedAt := now }) fun _ => rfl

def archive (eventId : EventId) (archivedAt : Time) : Bool × Events :=
  events.when eventId (fun event => event.archivedAt.isNone)
    (fun event => { event with
      status := .closed, archivedAt := some archivedAt, updatedAt := archivedAt }) fun _ => rfl

def unarchive (eventId : EventId) (updatedAt : Time) : Bool × Events :=
  events.when eventId (fun event => event.archivedAt.isSome)
    (fun event => { event with archivedAt := none, updatedAt := updatedAt }) fun _ => rfl

def appendConfirmedNotification (eventId : EventId) (text : String) (operationId : OperationId) :
    Bool × Events :=
  events.when eventId
    (fun event => event.lastConfirmedNotificationOperationId ≠ some operationId)
    (fun event => { event with
      confirmedNotifications := event.confirmedNotifications ++ [text]
      lastConfirmedNotificationOperationId := some operationId
      updatedAt := now }) fun _ => rfl

def setReservePromotion (eventId : EventId) (operationId : OperationId)
    (participantKey : Option ParticipantKey) : Except Fault Unit × Events :=
  events.existing eventId (fun event => { event with
    lastReservePromotionOperationId := some operationId
    lastReservePromotionParticipantKey := participantKey
    updatedAt := now }) fun _ => rfl

def markReservePromotionDelivered (eventId : EventId) (operationId : OperationId) :
    Except Fault Unit × Events :=
  events.existing eventId (fun event => { event with
    lastReservePromotionDeliveredOperationId := some operationId, updatedAt := now }) fun _ => rfl

def setConfirmedLinkPromotion (eventId : EventId) (operationId : OperationId)
    (participantKey : Option ParticipantKey) : Except Fault Unit × Events :=
  events.existing eventId (fun event => { event with
    lastConfirmedLinkPromotionOperationId := some operationId
    lastConfirmedLinkPromotionParticipantKey := participantKey
    updatedAt := now }) fun _ => rfl

def markConfirmedLinkPromotionDelivered (eventId : EventId) (operationId : OperationId) :
    Except Fault Unit × Events :=
  events.existing eventId (fun event => { event with
    lastConfirmedLinkPromotionDeliveredOperationId := some operationId
    updatedAt := now }) fun _ => rfl

def setParticipantRemoval (eventId : EventId) (operationId : OperationId)
    (participantKeys : List String) : Except Fault Unit × Events :=
  events.existing eventId (fun event =>
    if event.lastParticipantRemovalOperationId = some operationId then event
    else { event with
      lastParticipantRemovalOperationId := some operationId
      participantRemovalKeys := participantKeys
      participantRemovalNotifiedKeys := []
      updatedAt := now }) fun _ => by split <;> rfl

/-- The keys that `add_participant_removal_keys` appends: each once, and none that is stored. -/
def addedKeys (stored participantKeys : List String) : List String :=
  participantKeys.eraseDups.filter fun key => key ∉ stored

def addParticipantRemovalKeys (eventId : EventId) (operationId : OperationId)
    (participantKeys : List String) : Except Fault Unit × Events :=
  events.existing eventId (fun event =>
    let added := addedKeys event.participantRemovalKeys participantKeys
    if event.lastParticipantRemovalOperationId = some operationId ∧ added ≠ [] then
      { event with
        participantRemovalKeys := event.participantRemovalKeys ++ added, updatedAt := now }
    else event) fun _ => by dsimp only; split <;> rfl

def markParticipantRemovalDelivered (eventId : EventId) (operationId : OperationId)
    (participantKey : String) : Except Fault Unit × Events :=
  events.existing eventId (fun event =>
    if event.lastParticipantRemovalOperationId = some operationId ∧
        participantKey ∉ event.participantRemovalNotifiedKeys then
      { event with
        participantRemovalNotifiedKeys := event.participantRemovalNotifiedKeys ++ [participantKey]
        updatedAt := now }
    else event) fun _ => by split <;> rfl

/-! ### Scheduled closing -/

def setScheduledCloseAt (eventId : EventId) (closesAt : Option Time) : Bool × Events :=
  events.when eventId
    (fun event => event.scheduledCloseOperationId.isNone && event.scheduledCloseAt ≠ closesAt)
    (fun event => { event with
      scheduledCloseAt := closesAt
      scheduledCloseNotifiedRecipients := []
      scheduledCloseCompletedAt := none
      updatedAt := now }) fun _ => rfl

def startScheduledClose (eventId : EventId) (operationId : OperationId) : Bool × Events :=
  match events.get eventId with
  | none => (false, events)
  | some event =>
    if event.scheduledCloseOperationId = some operationId then (true, events)
    else if event.archivedAt.isSome || event.scheduledCloseOperationId.isSome then (false, events)
    else (true, events.modify eventId (fun event => { event with
      status := .closed
      scheduledCloseOperationId := some operationId
      updatedAt := now }) fun _ => rfl)

def completeScheduledCloseActions (eventId : EventId) (operationId : OperationId) :
    Bool × Events :=
  match events.get eventId with
  | none => (false, events)
  | some event =>
    if event.scheduledCloseOperationId ≠ some operationId then (false, events)
    else if event.archivedAt.isSome then (true, events)
    else (true, events.modify eventId (fun event => { event with
      status := .closed, archivedAt := some now, updatedAt := now }) fun _ => rfl)

def markScheduledCloseNotificationDelivered (eventId : EventId) (operationId : OperationId)
    (recipient : String) : Except Fault Unit × Events :=
  events.existing eventId (fun event =>
    if event.scheduledCloseOperationId = some operationId ∧
        recipient ∉ event.scheduledCloseNotifiedRecipients then
      { event with
        scheduledCloseNotifiedRecipients := event.scheduledCloseNotifiedRecipients ++ [recipient]
        updatedAt := now }
    else event) fun _ => by split <;> rfl

def completeScheduledCloseNotifications (eventId : EventId) (operationId : OperationId) :
    Except Fault Unit × Events :=
  events.existing eventId (fun event =>
    if event.scheduledCloseOperationId = some operationId ∧
        event.scheduledCloseCompletedAt.isNone then
      { event with scheduledCloseCompletedAt := some now, updatedAt := now }
    else event) fun _ => by split <;> rfl

/-- `set_pass_table`: the path and the link are set together, so one of them tells of both. -/
def setPassTable (eventId : EventId) (resourcePath : String) : Bool × Events :=
  events.when eventId (fun event => event.passTableResourcePath.isNone)
    (fun event => { event with passTableResourcePath := some resourcePath, updatedAt := now })
    fun _ => rfl

/-! ### Pages -/

/-- The order of event pages. -/
def pageKey (event : Event) : Time ×ₗ EventId :=
  toLex (event.createdAt, event.eventId)

/-- `list_page` with the cursor, the archive filter and the limit that the services pass. -/
def listPage (after : Option (Time × EventId)) (archived : Bool) (limit : Nat) :
    Except Fault (List Event) :=
  if limit < 1 ∨ limit > maxEventPageSize then
    .error (.valueError s!"event page size must be between 1 and {maxEventPageSize}")
  else
    .ok <| ((sortBy pageKey events.rows).filter fun event =>
      event.archivedAt.isSome = archived &&
        after.all fun cursor => toLex cursor < pageKey event).take limit

/-- The arguments of `list_page`. -/
structure ListQuery where
  statuses : Option (List EventStatus) := none
  after : Option (Time ×ₗ EventId) := none
  before : Option (Time ×ₗ EventId) := none
  archived : Option Bool := none
  registrationOpened : Option Bool := none
  newestFirst : Bool := false
  limit : Nat := 10

/-- The events that pass the filters of a query, its cursors aside. -/
def ListQuery.admits (query : ListQuery) (now : Time) (event : Event) : Bool :=
  query.statuses.all (event.status ∈ ·) && query.archived.all (event.archivedAt.isSome = ·) &&
    query.registrationOpened.all (event.registrationIsOpen now = ·)

/-- `list_page`. -/
def listPageBy (query : ListQuery) : Except Fault (List Event) :=
  if query.limit < 1 ∨ query.limit > maxEventPageSize then
    .error (.valueError s!"event page size must be between 1 and {maxEventPageSize}")
  else if query.after.isSome ∧ query.before.isSome then
    .error (.valueError "only one event-page cursor may be supplied")
  else
    let sorted := sortBy pageKey events.rows
    let values := (if query.newestFirst then sorted.reverse else sorted).filter (query.admits now)
    let values := match query.after with
      | none => values
      | some cursor => values.filter fun event =>
        if query.newestFirst then pageKey event < cursor else cursor < pageKey event
    let values := match query.before with
      | none => values
      | some cursor => (values.filter fun event =>
        if query.newestFirst then cursor < pageKey event else pageKey event < cursor).rtake query.limit
    .ok (values.take query.limit)

/-- A query with the arguments of the services that walk over all events. -/
theorem listPage_eq_listPageBy (after : Option (Time × EventId)) (archived : Bool) (limit : Nat) :
    events.listPage after archived limit =
      events.listPageBy now { after := after.map toLex, archived := some archived, limit := limit } := by
  unfold listPage listPageBy
  by_cases hlimit : limit < 1 ∨ limit > maxEventPageSize
  · rw [if_pos hlimit, if_pos hlimit]
  · rw [if_neg hlimit, if_neg hlimit]
    have hadmits : ∀ after : Option (Time ×ₗ EventId),
        ({ after := after, archived := some archived, limit := limit } : ListQuery).admits now =
          fun event => decide (event.archivedAt.isSome = archived) := by
      intro after
      funext event
      simp [ListQuery.admits]
    cases after with
    | none => simp [hadmits]
    | some cursor =>
      simp only [hadmits, Option.map_some, Option.isSome_some, Option.isSome_none, Bool.false_eq_true,
        and_false, if_false, List.filter_filter, Option.all_some]
      congr 3
      funext event
      rw [Bool.and_comm]

end Events

/-- Small projection for resolving a global user without loading their questionnaire. -/
structure UserPassPreference where
  platform : Platform
  userId : Nat
  needsPass : Option Bool
  telegramHandle : Option String
  linkedVkId : Option Nat
  updatedAt : Time

namespace Users

variable (users : Users)

def get (platform : Platform) (userId : Nat) : Option User :=
  users.find? ⟨platform, userId⟩

def listAll : List User :=
  users.rows

/-- The Telegram profiles that claim a VK account under a handle. -/
def owners (vkId : Nat) (handle : String) : List TelegramUser :=
  users.rows.filterMap fun
    | .telegram profile =>
      if profile.linkedVkId = some vkId ∧ profile.telegramHandle = some handle then some profile
      else none
    | .vk _ => none

def findLinked : User → Option User
  | .telegram user =>
    match user.linkedVkId, user.telegramHandle with
    | some vkId, some handle =>
      match users.owners vkId handle with
      | [owner] =>
        if owner.tgId = user.tgId then
          (users.get .vk vkId).filter fun linked => linked.telegramHandle = some handle
        else none
      | _ => none
    | _, _ => none
  | .vk user =>
    match user.telegramHandle with
    | none => none
    | some handle =>
      match users.owners user.vkId handle with
      | [owner] => some (.telegram owner)
      | _ => none

def findTelegramByHandle (handle : String) : Option TelegramUser :=
  match users.rows.filterMap fun
    | .telegram profile => if profile.telegramHandle = some handle then some profile else none
    | .vk _ => none with
  | [profile] => some profile
  | _ => none

def listPassPreferences : List UserPassPreference :=
  users.rows.map fun user =>
    { platform := user.identity.platform
      userId := user.identity.platformUserId
      needsPass := user.base.needsPass
      telegramHandle := user.telegramHandle
      linkedVkId := match user with
        | .telegram profile => profile.linkedVkId
        | .vk _ => none
      updatedAt := user.base.updatedAt }

/-- `claim_delivery`: the marker of a delivery replaces the one before, and so do the buttons. -/
def claimDelivery (platform : Platform) (userId : Nat) (operationId : OperationId)
    (buttons : List Button) : Bool × Users :=
  match users.get platform userId with
  | none => (true, users)
  | some user =>
    if user.base.lastDeliveryOperationId = some operationId then (false, users)
    else (true, users.modify ⟨platform, userId⟩
      (User.mapBase fun base => { base with
        lastDeliveryOperationId := some operationId, lastBotButtons := buttons })
      fun user => User.identity_mapBase _ user)

def save (user : User) : Users :=
  users.insert user

/-- `set_larp_experience`; `grant_larp_experience` sets it to `true`. -/
def setLarpExperience (now : Time) (platform : Platform) (userId : Nat) (experienced : Bool) :
    Users :=
  users.modify ⟨platform, userId⟩
    (User.mapBase fun base => { base with larpExperience := some experienced, updatedAt := now })
    fun user => User.identity_mapBase _ user

def updateTelegramLink (now : Time) (userId : Nat) (handle : Option String)
    (linkedVkId : Option Nat) : Users :=
  users.modify ⟨.telegram, userId⟩ (fun
    | .telegram user =>
      .telegram { user with telegramHandle := handle, linkedVkId := linkedVkId, updatedAt := now }
    | .vk user => .vk user) fun user => by cases user <;> rfl

def updateTelegramHandle (now : Time) (userId : Nat) (handle : String) : Users :=
  users.modify ⟨.telegram, userId⟩ (fun
    | .telegram user => .telegram { user with telegramHandle := some handle, updatedAt := now }
    | .vk user => .vk user) fun user => by cases user <;> rfl

end Users

end LarpBot
