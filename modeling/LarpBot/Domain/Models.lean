import LarpBot.Foundation.Table

/-!
# The domain models

The records of `domain/models.py`, with the fields that the modelled services read or write. An
enumeration is an inductive type; a set of payload classes is one inductive type, so `isinstance`
is a pattern match. Instants are microseconds since the epoch in UTC (`Time`), so `timedelta`
arithmetic is exact; a calendar date is its three numbers.

`OrderedRegistrationCommand` carries the outcome of its `validate_shape` validator: a command whose
payload does not fit its operation cannot be built.
-/

namespace LarpBot

abbrev EventId := String
abbrev ParticipantKey := String
abbrev OperationId := String

/-- An instant, in microseconds since the epoch (UTC). -/
abbrev Time := Int

/-- One step of the clock: `timedelta(microseconds=1)`. -/
abbrev microsecond : Time := 1

/-- A calendar date. -/
structure GameDate where
  year : Nat
  month : Nat
  day : Nat
deriving DecidableEq, Repr

/-- `%02d`. -/
def twoDigits (n : Nat) : String :=
  if n < 10 then s!"0{n}" else toString n

/-- `value.strftime("%d.%m.%y")`. -/
def formatGameDate (value : GameDate) : String :=
  s!"{twoDigits value.day}.{twoDigits value.month}.{twoDigits (value.year % 100)}"

/-- `date.isoformat()` of a date with a four-digit year. -/
def GameDate.isoformat (value : GameDate) : String :=
  s!"{value.year}-{twoDigits value.month}-{twoDigits value.day}"

def eventReference (name : String) (gameDate : Option GameDate) : String :=
  match gameDate with
  | none => s!"«{name}»"
  | some d => s!"«{name}» ({formatGameDate d})"

def eventNameWithDate (name : String) (gameDate : Option GameDate) : String :=
  match gameDate with
  | none => name
  | some d => s!"{name} ({formatGameDate d})"

/-- Unicode white space, on which `str.split()` and `str.strip()` work. -/
def isPythonSpace (c : Char) : Bool :=
  c.isWhitespace || c ∈ ['\x0b', '\x0c', '\x1c', '\x1d', '\x1e', '\x1f', '\u0085', '\u00a0', '\u1680',
    '\u2000', '\u2001', '\u2002', '\u2003', '\u2004', '\u2005', '\u2006', '\u2007', '\u2008', '\u2009',
    '\u200a', '\u2028', '\u2029', '\u202f', '\u205f', '\u3000']

/-- The words of `str.split()`: `current` is the word being read, last character first. -/
def splitWords : List Char → List Char → List (List Char)
  | [], [] => []
  | [], current => [current.reverse]
  | c :: cs, current =>
    if isPythonSpace c then
      if current.isEmpty then splitWords cs [] else current.reverse :: splitWords cs []
    else splitWords cs (c :: current)

/-- `value.split()`. -/
def pythonSplit (value : String) : List String :=
  (splitWords value.toList []).map String.ofList

/-- Return the two name parts allowed outside pass data. -/
def surnameAndName (value : String) : String :=
  " ".intercalate ((pythonSplit value).take 2)

inductive Platform
  | telegram
  | vk
  | system
deriving DecidableEq, Repr

def Platform.value : Platform → String
  | .telegram => "telegram"
  | .vk => "vk"
  | .system => "system"

inductive EventStatus
  | created
  | confirmationOpen
  | closed
deriving DecidableEq, Repr

inductive AttendanceStatus
  | waiting
  | confirmed
  | cancelled
deriving DecidableEq, Repr

inductive Operation
  | statistics
  | syncProfile
  | refreshDailyPassTable
  | refreshEventTables
  | enlist
  | updateProfile
  | confirm
  | updateCharacterWish
  | updateCoPlayerWish
  | updateAnswer
  | updateQuestion
  | cancel
  | openRegistration
  | openConfirmation
  | scheduledOpenConfirmation
  | sendConfirmationReminder
  | sendConfirmedNotification
  | sendAllPlayersNotification
  | updateEventDetails
  | updatePlayerAmount
  | removeParticipant
  | removeWaitingParticipants
  | promoteReserveParticipant
  | closeEvent
  | archiveEvent
  | scheduledCloseEvent
  | scheduledCloseStatistics
  | scheduledCloseFinalize
  | unarchiveEvent
  | deleteEvent
deriving DecidableEq, Repr

structure Button where
  label : String
  value : String
deriving DecidableEq, Repr

structure BotIdentity where
  platform : Platform
  platformUserId : Nat
deriving DecidableEq, Repr

/-! ## Users -/

/-- The pass questionnaire of a user. -/
structure PassDetails where
  surnameCyrillic : String
  nameCyrillic : String
  patronymCyrillic : String
  foreigner : Bool
  surnameLatin : Option String
  nameLatin : Option String
  patronymLatin : Option String
  mobilePhone : String
  email : String
deriving DecidableEq, Repr

/-- A value of a dialog's context, a JSON object in storage. -/
inductive ContextValue
  | null
  | flag (value : Bool)
  | number (value : Int)
  | text (value : String)
  | list (values : List ContextValue)
  | record (fields : List (String × ContextValue))

namespace ContextValue

mutual

def decEq : (a b : ContextValue) → Decidable (a = b)
  | null, null => .isTrue rfl
  | flag a, flag b => decidable_of_iff (a = b) (by simp)
  | number a, number b => decidable_of_iff (a = b) (by simp)
  | text a, text b => decidable_of_iff (a = b) (by simp)
  | list as, list bs => match decEqList as bs with
    | .isTrue h => .isTrue (by rw [h])
    | .isFalse h => .isFalse (by simp [h])
  | record as, record bs => match decEqFields as bs with
    | .isTrue h => .isTrue (by rw [h])
    | .isFalse h => .isFalse (by simp [h])
  | null, flag _ | null, number _ | null, text _ | null, list _ | null, record _
  | flag _, null | flag _, number _ | flag _, text _ | flag _, list _ | flag _, record _
  | number _, null | number _, flag _ | number _, text _ | number _, list _ | number _, record _
  | text _, null | text _, flag _ | text _, number _ | text _, list _ | text _, record _
  | list _, null | list _, flag _ | list _, number _ | list _, text _ | list _, record _
  | record _, null | record _, flag _ | record _, number _ | record _, text _ | record _, list _ =>
    .isFalse (by simp)

def decEqList : (as bs : List ContextValue) → Decidable (as = bs)
  | [], [] => .isTrue rfl
  | [], _ :: _ | _ :: _, [] => .isFalse (by simp)
  | a :: as, b :: bs => match decEq a b with
    | .isFalse h => .isFalse (by simp [h])
    | .isTrue h => match decEqList as bs with
      | .isTrue h' => .isTrue (by rw [h, h'])
      | .isFalse h' => .isFalse (by simp [h'])

def decEqFields : (as bs : List (String × ContextValue)) → Decidable (as = bs)
  | [], [] => .isTrue rfl
  | [], _ :: _ | _ :: _, [] => .isFalse (by simp)
  | (name, a) :: as, (name', b) :: bs =>
    if hname : name = name' then match decEq a b with
      | .isFalse h => .isFalse (by simp [h])
      | .isTrue h => match decEqFields as bs with
        | .isTrue h' => .isTrue (by rw [hname, h, h'])
        | .isFalse h' => .isFalse (by simp [h'])
    else .isFalse (by simp [hname])

end

instance : DecidableEq ContextValue := decEq

end ContextValue

/-- `dialog_context`: what a dialog has gathered so far, one value for a name. -/
abbrev DialogContext := Atomic.Table (Prod.fst : String × ContextValue → String)

/-- The global roles of the bot. -/
inductive PrivilegedRole
  | gamemaster
  | gamemasterViewer
  | passManager
  | admin
deriving DecidableEq, Repr

/-- The part of a profile that both platforms share. -/
structure UserBase where
  fullName : Option String := none
  nickname : Option String := none
  crossplay : Option Bool := none
  larpExperience : Option Bool := none
  needsPass : Option Bool := none
  passDetails : Option PassDetails := none
  dialogState : String := "IDLE"
  dialogContext : DialogContext := Atomic.Table.empty
  lastUpdateId : Option String := none
  lastDeliveryOperationId : Option OperationId := none
  lastBotButtons : List Button := []
  /-- It is older than the roles, and stands for the lowest one where no role is set. -/
  isGamemaster : Bool := false
  privilegedRole : Option PrivilegedRole := none
  gamemasterGrantOperationId : Option OperationId := none
  updatedAt : Time := 0
deriving DecidableEq

def UserBase.effectivePrivilegedRole (u : UserBase) : Option PrivilegedRole :=
  u.privilegedRole.or (if u.isGamemaster then some .gamemaster else none)

def UserBase.commonProfileComplete (u : UserBase) : Bool :=
  u.fullName.isSome && u.crossplay.isSome && u.needsPass.isSome &&
    (u.needsPass != some true || u.passDetails.isSome)

structure TelegramUser extends UserBase where
  tgId : Nat
  vkUrl : Option String := none
  linkedVkId : Option Nat := none
  telegramHandle : Option String := none
deriving DecidableEq

structure VkUser extends UserBase where
  vkId : Nat
  telegramHandle : Option String := none
deriving DecidableEq

inductive User
  | telegram (user : TelegramUser)
  | vk (user : VkUser)
deriving DecidableEq

namespace User

def base : User → UserBase
  | telegram u => u.toUserBase
  | vk u => u.toUserBase

/-- Rewrite the shared part of a profile. -/
def mapBase (f : UserBase → UserBase) : User → User
  | telegram u => telegram { u with toUserBase := f u.toUserBase }
  | vk u => vk { u with toUserBase := f u.toUserBase }

/-- `_user_identity`: the platform and the number under which a profile is stored. -/
def identity : User → BotIdentity
  | telegram u => ⟨.telegram, u.tgId⟩
  | vk u => ⟨.vk, u.vkId⟩

def telegramHandle : User → Option String
  | telegram u => u.telegramHandle
  | vk u => u.telegramHandle

def profileComplete : User → Bool
  | telegram u => u.commonProfileComplete && u.vkUrl.isSome
  | vk u => u.commonProfileComplete

@[simp] theorem identity_mapBase (f : UserBase → UserBase) (u : User) :
    (u.mapBase f).identity = u.identity := by
  cases u <;> rfl

@[simp] theorem base_mapBase (f : UserBase → UserBase) (u : User) :
    (u.mapBase f).base = f u.base := by
  cases u <;> rfl

end User

/-! ## Events and registrations -/

/-- `MAX_PLAYER_AMOUNT`. -/
def maxPlayerAmount : Nat := 10000

structure AnswerOption where
  optionId : String
  name : String
  playerAmount : Nat
deriving DecidableEq, Repr

/-- A registration question; its validator demands distinct option identifiers. -/
structure RegistrationQuestion where
  text : String
  options : List AnswerOption
  distinct : (options.map AnswerOption.optionId).Nodup
deriving DecidableEq

def RegistrationQuestion.option (question : RegistrationQuestion) (optionId : Option String) :
    Option AnswerOption :=
  question.options.find? fun option => some option.optionId = optionId

/-- An event without tables has neither the path nor the link of one. -/
theorem tables_absent : (none : Option String).isSome = (none : Option String).isSome := rfl

structure Event where
  eventId : EventId
  name : String
  signupToken : Option String := none
  gameDate : Option GameDate := none
  playerAmount : Nat := 30
  registrationQuestion : Option RegistrationQuestion := none
  diskResourcePath : String := ""
  publicRegistrationUrl : String := ""
  masterTableGoogleUrl : Option String := none
  publicTableResourcePath : Option String := none
  publicTablePublicUrl : Option String := none
  publicTableGoogleUrl : Option String := none
  status : EventStatus := .created
  registrationOpenAt : Option Time := none
  registrationOpenNotifiedRecipients : List String := []
  registrationOpenNotificationCompletedAt : Option Time := none
  confirmationOpenAt : Option Time := none
  scheduledCloseAt : Option Time := none
  scheduledCloseOperationId : Option OperationId := none
  scheduledCloseNotifiedRecipients : List String := []
  scheduledCloseCompletedAt : Option Time := none
  telegramChatId : Option Int := none
  telegramChatInviteLink : Option String := none
  confirmationDeadline : Option Time := none
  registrationsMigratedAt : Option Time := some 0
  passTableResourcePath : Option String := none
  achievementResourcePath : Option String := none
  confirmedNotifications : List String := []
  lastConfirmedNotificationOperationId : Option OperationId := none
  lastReservePromotionOperationId : Option OperationId := none
  lastReservePromotionParticipantKey : Option ParticipantKey := none
  lastReservePromotionDeliveredOperationId : Option OperationId := none
  lastConfirmedLinkPromotionOperationId : Option OperationId := none
  lastConfirmedLinkPromotionParticipantKey : Option ParticipantKey := none
  lastConfirmedLinkPromotionDeliveredOperationId : Option OperationId := none
  lastParticipantRemovalOperationId : Option OperationId := none
  participantRemovalKeys : List String := []
  participantRemovalNotifiedKeys : List String := []
  archivedAt : Option Time := none
  createdAt : Time := 0
  updatedAt : Time := 0
  /-- `table_fields_are_atomic` for the public table. -/
  public_table_atomic : publicTableResourcePath.isSome = publicTablePublicUrl.isSome := by
    first | exact tables_absent | rfl
deriving DecidableEq

/-- Attach a public table, path and link together. -/
def Event.withPublicTable (event : Event) (resourcePath publicUrl : String)
    (googleUrl : Option String) : Event :=
  { event with
    publicTableResourcePath := some resourcePath
    publicTablePublicUrl := some publicUrl
    publicTableGoogleUrl := googleUrl
    public_table_atomic := rfl }

def Event.registrationIsOpen (event : Event) (now : Time) : Bool :=
  match event.registrationOpenAt with
  | none => true
  | some opensAt => opensAt ≤ now

structure Registration where
  eventId : EventId
  participantKey : ParticipantKey
  displayName : String
  nickname : Option String := none
  vkProfile : String := ""
  telegramProfile : Option String := none
  wishPlay : String
  answerId : Option String := none
  answerQueueAt : Option Time := none
  larpExperience : Option Bool := none
  crossplay : Option Bool := none
  characterWish : String := ""
  attendanceStatus : AttendanceStatus := .waiting
  lastOperationId : OperationId := ""
  createdAt : Time := 0
  updatedAt : Time := 0
deriving DecidableEq, Repr

/-- The key under which the repository stores a registration. -/
def Registration.key (registration : Registration) : EventId × ParticipantKey :=
  (registration.eventId, registration.participantKey)

/-! ## Commands -/

structure EnlistPayload where
  answerId : Option String := none
  displayName : String
  nickname : Option String := none
  wishPlay : String
  larpExperience : Option Bool := none
  crossplay : Option Bool := none
  vkProfile : String := ""
  telegramProfile : Option String := none
  sameDayWarningShown : Bool := false
deriving DecidableEq

structure CharacterWishPayload where
  characterWish : String
  replacedEventId : Option EventId := none
deriving DecidableEq

structure EventDetailsPayload where
  name : String
  gameDate : GameDate
deriving DecidableEq

inductive CommandPayload
  | enlist (payload : EnlistPayload)
  | answer (answerId : String)
  | question (question : RegistrationQuestion)
  | coPlayerWish (wishPlay : String)
  | characterWish (payload : CharacterWishPayload)
  | confirmationDeadline (deadline : Time)
  | notification (text : String)
  | eventDetails (payload : EventDetailsPayload)
  | playerAmount (playerAmount : Nat)
  | profileSync (names : List String)
  | dailyPassRefresh (gameDate : GameDate)
  | statistics (action : String) (gameId : Option String)
  | empty
deriving DecidableEq

structure ReplyContext where
  chatId : Option Int := none
  peerId : Option Int := none
  textSuccess : String := ""
  textFailure : String := ""
  buttons : List Button := []
deriving DecidableEq

/-- The payload class that `validate_shape` asks of each operation. -/
def payloadFits : Operation → CommandPayload → Bool
  | .statistics, .statistics _ _ => true
  | .syncProfile, .profileSync _ => true
  | .refreshDailyPassTable, .dailyPassRefresh _ => true
  | .enlist, .enlist _ => true
  | .confirm, .characterWish _ => true
  | .updateCharacterWish, .characterWish _ => true
  | .updateCoPlayerWish, .coPlayerWish _ => true
  | .updateAnswer, .answer _ => true
  | .updateQuestion, .question _ => true
  | .openConfirmation, .confirmationDeadline _ => true
  | .scheduledOpenConfirmation, .confirmationDeadline _ => true
  | .sendConfirmedNotification, .notification _ => true
  | .sendAllPlayersNotification, .notification _ => true
  | .updateEventDetails, .eventDetails _ => true
  | .updatePlayerAmount, .playerAmount _ => true
  | .refreshEventTables, .empty | .updateProfile, .empty | .cancel, .empty
  | .removeParticipant, .empty | .promoteReserveParticipant, .empty | .openRegistration, .empty
  | .sendConfirmationReminder, .empty | .closeEvent, .empty | .removeWaitingParticipants, .empty
  | .archiveEvent, .empty | .scheduledCloseEvent, .empty | .scheduledCloseStatistics, .empty
  | .scheduledCloseFinalize, .empty | .unarchiveEvent, .empty | .deleteEvent, .empty => true
  | _, _ => false

/-- The operations that name a participant. -/
def Operation.isParticipantOperation : Operation → Bool
  | .enlist | .updateProfile | .confirm | .updateCharacterWish | .updateCoPlayerWish
  | .updateAnswer | .cancel | .removeParticipant | .promoteReserveParticipant => true
  | _ => false

/-- The group that `validate_shape` asks of the operations that are not about one event. -/
def groupFits (operation : Operation) (eventId : EventId) (platform : Platform)
    (platformUserId : Nat) (payload : CommandPayload) : Bool :=
  match operation, payload with
  | .statistics, _ => eventId = "statistics"
  | .syncProfile, _ => eventId = s!"profile:{platform.value}:{platformUserId}"
  | .refreshDailyPassTable, .dailyPassRefresh d =>
    eventId = s!"daily-passes:{d.isoformat}" && platform = .system
  | _, _ => true

structure OrderedRegistrationCommand where
  operationId : OperationId
  eventId : EventId
  operation : Operation
  platform : Platform
  platformUserId : Nat
  participantKey : Option ParticipantKey := none
  identityGroup : Option String := none
  payload : CommandPayload := .empty
  replyContext : ReplyContext := {}
  payload_fits : payloadFits operation payload = true := by rfl
  participant_named : operation.isParticipantOperation = true →
    participantKey.getD "" ≠ "" := by decide
  group_fits : groupFits operation eventId platform platformUserId payload = true := by rfl
deriving DecidableEq

/-- The FIFO group of a command. Confirmation decisions span games, so they are serialized per
player; the other mutations keep their per-event order. -/
def OrderedRegistrationCommand.queueGroupId (command : OrderedRegistrationCommand) : String :=
  match command.operation with
  | .confirm =>
    let group := command.identityGroup.getD
      s!"{command.platform.value}:{command.platformUserId}"
    s!"confirmation:{group}"
  | .scheduledCloseStatistics => "statistics"
  | _ => command.eventId

end LarpBot
