import LarpBot.Application.EventAdministration
import LarpBot.Application.RegistrationMembers

/-!
# Completed uploads

`UploadCompletionService` for a new game whose tables were written to Yandex Disk alone
(`_event_created` without Google links): the game was only a staged upload so far, and the completion
creates it. The first attempt stores the game, tells its masters, sends the links to the person who
asked for it and orders the table of passes of its day; an attempt that finds the game stored writes
the links and sends them to that person again.

The links to the table of passes, which the model of an event leaves out, are taken from the
completion: the attempt has just stored them.
-/

namespace LarpBot

open Atomic Act

/-! ## Completions -/

structure CompletionRequester where
  platform : Platform
  /-- The chat of the person. -/
  userId : Nat
  profileUserId : Nat
deriving DecidableEq

/-- The payload of an `event_created` completion. `event` is what the validators make of the stored
fields, without the links; it is `none` where they refuse them. -/
structure EventCreated where
  jobId : String
  success : Bool := true
  publicUrls : List (String × String)
  event : Option Event
  leaders : List BotIdentity := []
  requester : Option CompletionRequester := none
  masterLabel : Option String := none
  mastersPending : Bool := false
deriving DecidableEq

/-- A message that a completion sends at most once: its operation id becomes the delivery marker of a
profile. -/
structure CompletionNotice where
  profile : BotIdentity
  userId : Nat
  operationId : OperationId
deriving DecidableEq

namespace EventCreated

variable (completion : EventCreated)

def url (role : String) : Option String :=
  (completion.publicUrls.find? fun entry => entry.1 = role).map Prod.snd

/-- `set(yandex_urls) == {"master", "public", "pass"}`. -/
def hasAllUrls : Bool :=
  ["master", "public", "pass"].all (fun role => completion.publicUrls.any (·.1 = role)) &&
    completion.publicUrls.all fun entry => entry.1 ∈ ["master", "public", "pass"]

/-- `_public_urls` accepts the links. -/
def hasValidUrls : Bool :=
  completion.publicUrls.all fun entry => "https://".toList.isPrefixOf entry.2.toList

/-- The event with the links of its tables. -/
def game : Option Event :=
  completion.event.bind fun event =>
    event.publicTableResourcePath.map fun path =>
      { event.withPublicTable path ((completion.url "public").getD "") none with
        publicRegistrationUrl := (completion.url "master").getD "" }

def requesterIdentity : Option BotIdentity :=
  completion.requester.map fun requester => ⟨requester.platform, requester.profileUserId⟩

def leaderNotice (leader : BotIdentity) : CompletionNotice where
  profile := leader
  userId := leader.platformUserId
  operationId :=
    s!"{completion.jobId}:leader:{leader.platform.value}:{leader.platformUserId}"

/-- The message to the person who asked for the game. -/
def requesterNotice (ending : String) : Option CompletionNotice :=
  completion.requester.map fun requester =>
    { profile := ⟨requester.platform, requester.profileUserId⟩
      userId := requester.userId
      operationId := s!"{completion.jobId}:{ending}" }

end EventCreated

/-! ## Calls -/

inductive CompletionCall
  | port (call : Call)
  | createEvent (event : Event) (leaders : List BotIdentity)
  | setYandexTableLinks (eventId : EventId) (masterUrl publicUrl : Option String)
  | getSecret (name : String)

/-- A secret that is `none` is an exception. -/
@[reducible] def CompletionCall.Ans : CompletionCall → Type
  | port c => c.Ans
  | createEvent _ _ => Except Fault Unit
  | setYandexTableLinks _ _ _ => Except Fault Bool
  | getSecret _ => Option String

structure CompletionInput where
  ports : Input
  secret : String → Option String

/-- `set_yandex_table_links`; a public link needs the path of a public table. -/
def Events.setYandexTableLinks (events : Events) (now : Time) (eventId : EventId)
    (masterUrl publicUrl : Option String) : Except Fault Bool × Events :=
  match events.get eventId with
  | none => (.ok false, events)
  | some event =>
    match event.publicTableResourcePath, Events.orElse publicUrl event.publicTablePublicUrl with
    | none, some _ =>
      (.error (.valueError "public table resource path and public URL must be set together"), events)
    | _, _ =>
      (.ok true, events.modify eventId (fun event =>
        let linked := match event.publicTableResourcePath,
            Events.orElse publicUrl event.publicTablePublicUrl with
          | some path, some url => event.withPublicTable path url event.publicTableGoogleUrl
          | _, _ => event
        { linked with
          publicRegistrationUrl := (Events.orElse masterUrl (some event.publicRegistrationUrl)).getD ""
          updatedAt := now })
        (by intro event; dsimp only; split <;> rfl))

def CompletionCall.perform : (c : CompletionCall) → CompletionInput → World → c.Ans × World
  | port c, i, w => c.perform i.ports w
  | createEvent event leaders, _, w =>
    match w.create event leaders with
    | .ok w' => (.ok (), w')
    | .error fault => (.error fault, w)
  | setYandexTableLinks eventId masterUrl publicUrl, i, w =>
    let answer := w.events.setYandexTableLinks (i.ports .now) eventId masterUrl publicUrl
    (answer.1, { w with events := answer.2 })
  | getSecret name, i, w => (i.secret name, w)

@[reducible] def completionPorts : Signature := ⟨CompletionCall, CompletionCall.Ans⟩

abbrev CompletionAct (α : Type) := Prog completionPorts Failure α

namespace CompletionAct

def one (c : CompletionCall) : CompletionAct c.Ans :=
  Prog.ofCall (S := completionPorts) c

def users (c : UserCall) : CompletionAct c.Ans := one (.port (.users c))
def events (c : EventCall) : CompletionAct c.Ans := one (.port (.events c))
def outside (c : OutsideCall) : CompletionAct c.Ans := one (.port (.outside c))

def raise {α : Type} (fault : Fault) : CompletionAct α :=
  .fail (.fault fault)

def value {α : Type} : Except Fault α → CompletionAct α
  | .ok a => .done a
  | .error fault => raise fault

def present {α : Type} (integration : String) : Option α → CompletionAct α
  | some a => .done a
  | none => raise (.integration integration)

end CompletionAct

open CompletionAct (one raise)

/-! ## Messages -/

/-- An unreachable recipient raises like any other failure of the messenger. -/
def sendNotice (notice : CompletionNotice) (text : String) (buttons : List Button) :
    CompletionAct Unit := do
  let profile ← CompletionAct.users (.get notice.profile.platform notice.profile.platformUserId)
  if profile.bind (fun user => user.base.lastDeliveryOperationId) = some notice.operationId then
    return ()
  else
    match ← CompletionAct.outside (.send notice.profile.platform notice.userId notice.operationId
        text buttons) with
    | .unreachable => raise (.runtimeError "UnreachableRecipient")
    | .failed => raise (.integration "send")
    | .accepted =>
      let _ ← CompletionAct.users (.claimDelivery notice.profile.platform
        notice.profile.platformUserId notice.operationId buttons)

/-- `_send`. -/
def sendToRequester (notice : Option CompletionNotice) (text : String) (buttons : List Button) :
    CompletionAct Unit :=
  match notice with
  | none => .done ()
  | some notice => sendNotice notice text buttons

/-- `TableProviderLinks.for_admin`. -/
def tableProviderLinks (google stored : Option String) : Option String :=
  let yandex := if stored = google then none else stored
  match google, yandex with
  | some google, some yandex => some s!"Google Drive: {google}\nЯндекс Диск: {yandex}"
  | some google, none => some s!"Google Drive: {google}"
  | none, some yandex => some yandex
  | none, none => none

def masterTableDisclaimer : String :=
  "⚠️ Только для мастеров этой игры. Не пересылайте эту ссылку игрокам!"

def eventTableLinks (event : Event) (passUrl : String) : Except Fault String := do
  let links (google stored : Option String) : Except Fault String :=
    match tableProviderLinks google stored with
    | some links => .ok links
    | none => .error (.runtimeError "table has no public link")
  if event.publicTablePublicUrl.isNone then
    throw (.runtimeError "public game table is not initialized")
  let pub ← links event.publicTableGoogleUrl event.publicTablePublicUrl
  let master ← links event.masterTableGoogleUrl (some event.publicRegistrationUrl)
  return s!"Публичная таблица (без контактов Telegram и VK):\n{pub}\n\n" ++
    s!"Административная таблица:\n{masterTableDisclaimer}\n{master}\n\n" ++
    s!"Таблица пропусков:\n{passUrl}"

/-- The message with the links, or what is wrong with the game or with the names of the bot. -/
def gameCreatedText (completion : EventCreated) (event : Event)
    (telegramUsername vkGroupId : String) : Except Fault String := do
  if !isTelegramName telegramUsername then throw (.runtimeError "TG_BOT_USERNAME is invalid")
  if !(vkGroupId ≠ "" && vkGroupId.toList.all Char.isDigit && vkGroupId.toList.any (· ≠ '0')) then
    throw (.runtimeError "VK_GROUP_ID is invalid")
  match event.signupToken, event.gameDate with
  | some signupToken, some gameDate =>
    let masterLine := match completion.masterLabel with
      | some label => if label = "" then none else some s!"Мастер: {label}\n\n"
      | none => none
    let masterLine := masterLine.getD
      (if completion.mastersPending then "Мастера: пока не назначены\n\n" else "")
    let registrationLine := match event.registrationOpenAt with
      | none => "Статус: Регистрация. Игроки уже могут записываться, но пока не могут " ++
        "подтверждать участие."
      | some opensAt => "Открытие регистрации запланировано на " ++
        s!"{formatConfirmationDeadline opensAt} (МСК). До этого времени игра не будет видна игрокам."
    let confirmationLine := match event.confirmationOpenAt, event.confirmationDeadline with
      | some opensAt, some deadline => "\n\nОткрытие подтверждения участия запланировано на " ++
        s!"{formatConfirmationDeadline opensAt} (МСК). " ++
        s!"Дедлайн: {formatConfirmationDeadline deadline} (МСК)."
      | _, _ => ""
    let closeLine := match event.scheduledCloseAt with
      | none => ""
      | some closesAt => "\n\nАвтоматическое закрытие запланировано на " ++
        s!"{formatConfirmationDeadline closesAt} (МСК)."
    let links ← eventTableLinks event ((completion.url "pass").getD "")
    return s!"✅ Игра создана.\n\nНазвание:\n{event.name}\n\n" ++
      s!"Дата игры: {formatGameDate gameDate}\n\nКоличество игроков: {event.playerAmount}\n\n" ++
      s!"{masterLine}{registrationLine}{confirmationLine}{closeLine}\n\n" ++
      s!"Telegram — начать запись:\nhttps://t.me/{telegramUsername}?start={signupToken}\n\n" ++
      s!"VK — открыть чат с ботом:\nhttps://vk.me/club{vkGroupId}\n\n{links}"
  | _, _ => throw (.runtimeError "new game has no signup token or date")

/-! ## The completion of a new game -/

variable (bot : Deployment) (completion : EventCreated)

/-- `_notify_leaders`: everyone but the person who asked for the game. -/
def notifyLeaders (event : Event) : CompletionAct Unit :=
  Prog.forEach (fun leader =>
    sendNotice (completion.leaderNotice leader)
      s!"Вы добавлены мастером игры {eventReference event.name event.gameDate}."
      [⟨"Управление игрой", s!"ag:manage:{event.eventId}"⟩])
    (completion.leaders.filter fun leader => some leader ≠ completion.requesterIdentity)

/-- The links, to the person who asked for the game. -/
def sendLinks (event : Event) : CompletionAct Unit := do
  let telegramUsername ← CompletionAct.present "config" (← one (.getSecret "TG_BOT_USERNAME"))
  let vkGroupId ← CompletionAct.present "config" (← one (.getSecret "VK_GROUP_ID"))
  let text ← CompletionAct.value (gameCreatedText completion event telegramUsername vkGroupId)
  sendToRequester (completion.requesterNotice "complete") text
    [⟨"⬅️ Назад", s!"ag:manage:{event.eventId}"⟩]

/-- The order that refreshes the table of passes of a day. -/
def dailyPassRefresh (gameDate : GameDate) : OrderedRegistrationCommand where
  operationId := bot.uuid5 s!"daily-passes:{gameDate.isoformat}:{completion.jobId}"
  eventId := s!"daily-passes:{gameDate.isoformat}"
  operation := .refreshDailyPassTable
  platform := .system
  platformUserId := 0
  payload := .dailyPassRefresh gameDate
  group_fits := by simp [groupFits]

def queueDailyPassRefresh (gameDate : Option GameDate) : CompletionAct Unit := do
  match gameDate with
  | none => return ()
  | some gameDate =>
    CompletionAct.present "publish"
      (← CompletionAct.outside (.publish (dailyPassRefresh bot completion gameDate)))

/-- `_event_created`. -/
def eventCreated : CompletionAct Unit := do
  match if completion.hasAllUrls then completion.game else none with
  | none => raise (.valueError "event creation requires all Google URLs and only known Yandex URLs")
  | some game =>
    match ← CompletionAct.events (.get game.eventId) with
    | none =>
      CompletionAct.value (← one (.createEvent game completion.leaders))
      notifyLeaders completion game
      sendLinks completion game
      queueDailyPassRefresh bot completion game.gameDate
    | some existing =>
      let _ ← CompletionAct.value (← one (.setYandexTableLinks game.eventId
        (completion.url "master") (completion.url "public")))
      let stored ← CompletionAct.events (.get game.eventId)
      sendLinks completion (stored.getD existing)

/-- `handle` for such a completion. -/
def handleEventCreated : CompletionAct Unit := do
  if !completion.success then
    sendToRequester (completion.requesterNotice "failed")
      "Не удалось загрузить файл. Попробуйте повторить действие позже." []
  else if !completion.hasValidUrls then raise (.valueError "public_urls contains an invalid URL")
  else eventCreated bot completion

end LarpBot
