import LarpBot.Application.RegistrationMembers

/-!
# The chats of games

`TelegramChatManagementService` of `chat_management.py`, as far as it ties a Telegram chat to a game:
a button of the picker names a game by a token, the author must lead the game or be an admin and have
an explicit right in the chat, and `_tie` binds the chat, stores its invite link and hands a
`SEND_CONFIRMED_NOTIFICATION` with the link to the worker.

The service is a program over the ports of the worker and over the methods that only it calls.
-/

namespace LarpBot

open Atomic Act

/-- The fields of a `TelegramGroupUpdate` that a callback has. -/
structure TelegramGroupUpdate where
  updateId : String
  chatId : Int
  actorUserId : Option Nat := none
  messageId : Option Int := none
  callbackQueryId : Option String := none
  callbackData : Option String := none
deriving DecidableEq

/-! ## Calls -/

/-- What Telegram says of an invite link. -/
inductive InviteOutcome
  | link (text : String)
  | forbidden
  | failed
deriving DecidableEq

/-- A chat member with the rights that are `true` of it. -/
structure ChatAdministrator where
  status : String
  rights : List String := []
deriving DecidableEq

inductive ChatCall
  | port (call : Call)
  | bindTelegramChat (eventId : EventId) (chatId : Int)
  | setTelegramChatInviteLink (eventId : EventId) (chatId : Int) (inviteLink : String)
  | getChatMember (chatId : Int) (userId : Nat) (requestId : String)
  | ensurePrimaryInviteLink (chatId : Int) (requestId : String)
  | answerCallback (callbackQueryId requestId : String) (text : Option String)
  | editMessage (chatId messageId : Int) (requestId text : String) (buttons : List Button)
  | deleteMessage (chatId messageId : Int) (requestId : String)
  | sendMessage (chatId : Int) (requestId text : String) (buttons : List Button)

/-- An answer `none` is an exception. -/
@[reducible] def ChatCall.Ans : ChatCall → Type
  | port c => c.Ans
  | bindTelegramChat _ _ | setTelegramChatInviteLink _ _ _ => Bool
  | getChatMember _ _ _ => Option (Option ChatAdministrator)
  | ensurePrimaryInviteLink _ _ => InviteOutcome
  | answerCallback _ _ _ | editMessage _ _ _ _ _ | deleteMessage _ _ _ | sendMessage _ _ _ _ =>
    Option Unit

/-- What the outside says at one call. -/
structure ChatInput where
  ports : Input
  member : Option (Option ChatAdministrator)
  invite : InviteOutcome
  reply : Option Unit

def ChatCall.perform : (c : ChatCall) → ChatInput → World → c.Ans × World
  | port c, i, w => c.perform i.ports w
  | bindTelegramChat eventId chatId, i, w =>
    let answer := w.events.bindTelegramChat (i.ports .now) eventId chatId
    (answer.1, { w with events := answer.2 })
  | setTelegramChatInviteLink eventId chatId inviteLink, i, w =>
    let answer := w.events.setTelegramChatInviteLink (i.ports .now) eventId chatId inviteLink
    (answer.1, { w with events := answer.2 })
  | getChatMember _ _ _, i, w => (i.member, w)
  | ensurePrimaryInviteLink _ _, i, w => (i.invite, w)
  | answerCallback _ _ _, i, w | editMessage _ _ _ _ _, i, w | deleteMessage _ _ _, i, w
  | sendMessage _ _ _ _, i, w => (i.reply, w)

@[reducible] def chatPorts : Signature := ⟨ChatCall, ChatCall.Ans⟩

abbrev ChatAct (α : Type) := Prog chatPorts Failure α

namespace ChatAct

def one (c : ChatCall) : ChatAct c.Ans :=
  Prog.ofCall (S := chatPorts) c

/-- A method of another service. -/
def within {α : Type} : Act α → ChatAct α
  | .done a => .done a
  | .fail e => .fail e
  | .call op next => .call (.port op) fun a => within (next a)

/-- A message to Telegram, or the exception that it raised. -/
def reply : Option Unit → ChatAct Unit
  | some () => .done ()
  | none => .fail (.fault (.integration "telegram"))

def raise {α : Type} (fault : Fault) : ChatAct α :=
  .fail (.fault fault)

/-- `if c: await p`. -/
def whenever (c : Bool) (p : ChatAct Unit) : ChatAct Unit :=
  if c then p else .done ()

end ChatAct

open ChatAct

/-! ## Who may tie a chat -/

def explicitAdminRights : List String :=
  ["can_change_info", "can_delete_messages", "can_manage_video_chats", "can_restrict_members",
    "can_promote_members", "can_invite_users", "can_post_stories", "can_edit_stories",
    "can_delete_stories", "can_post_messages", "can_edit_messages", "can_pin_messages",
    "can_manage_topics", "can_manage_direct_messages", "can_manage_tags",
    "can_send_welcome_messages"]

def memberHasExplicitAdminRight (member : Option ChatAdministrator) : Bool :=
  member.any fun member =>
    member.status = "creator" ||
      (member.status = "administrator" && explicitAdminRights.any (· ∈ member.rights))

def actorHasChatAdminRight (update : TelegramGroupUpdate) : ChatAct Bool := do
  match update.actorUserId with
  | none => return false
  | some userId =>
    match ← one (.getChatMember update.chatId userId s!"telegram-chat:{update.updateId}:actor") with
    | none => raise (.integration "getChatMember")
    | some member => return memberHasExplicitAdminRight member

def actorIdentities (update : TelegramGroupUpdate) : Act (List BotIdentity) := do
  match update.actorUserId with
  | none => return []
  | some userId => identitiesForLocalUser .telegram userId

def actorIsAdmin (identities : List BotIdentity) : Act Bool := do
  let answers ← Prog.traverse (fun identity => do
    present "is_admin" (← outside (.isAdmin identity.platform identity.platformUserId))) identities
  return answers.any id

variable (bot : Deployment) (eventToken : EventId → String)

def tieableEvents (update : TelegramGroupUpdate) : Act (Bool × List Event) := do
  let identities ← actorIdentities update
  if identities.isEmpty then return (false, [])
  let events ← unarchivedEvents bot
  if ← actorIsAdmin identities then return (true, events)
  let tieable ← Prog.traverse (fun event => do
    let leaders ← listLeaders event.eventId
    return if identities.any (· ∈ leaders) then [event] else []) events
  return (!tieable.flatten.isEmpty, tieable.flatten)

def actorCanTieEvent (update : TelegramGroupUpdate) (event : Event) : Act Bool := do
  let identities ← actorIdentities update
  if identities.isEmpty then return false
  if ← actorIsAdmin identities then return true
  let leaders ← listLeaders event.eventId
  return identities.any (· ∈ leaders)

/-! ## The picker -/

def chatPageSize : Nat := 5

def tieText : String :=
  "Выберите игру, к которой нужно привязать этот чат:\n\n" ++
  "⚠️ Сразу после успешной привязки бот автоматически запустит рассылку приглашений " ++
  "подтверждённым игрокам основного состава. Убедитесь, что чат готов к их вступлению."

def pageButtons (events : List Event) (pageNumber : Nat) : List Button :=
  let offset := pageNumber * chatPageSize
  let games := ((events.drop offset).take chatPageSize).map fun event =>
    ⟨eventNameWithDate event.name event.gameDate, s!"tie:e:{eventToken event.eventId}"⟩
  let previous := if 0 < pageNumber then
    [⟨"Предыдущая страница", s!"tie:p:{pageNumber - 1}"⟩] else []
  let next := if offset + chatPageSize < events.length then
    [⟨"Вперёд", s!"tie:p:{pageNumber + 1}"⟩] else []
  games ++ previous ++ next

/-- `_show_picker` at its first page, in the place of the message with the old picker. -/
def showPicker (update : TelegramGroupUpdate) (events : List Event) : ChatAct Unit := do
  let text := if events.isEmpty then "Нет неархивированных игр, к которым можно привязать чат."
    else tieText
  let buttons := if events.isEmpty then [] else pageButtons eventToken events 0
  let requestId := s!"telegram-chat:{update.updateId}:picker:0"
  match update.messageId with
  | some messageId => reply (← one (.editMessage update.chatId messageId requestId text buttons))
  | none => reply (← one (.sendMessage update.chatId requestId text buttons))

/-! ## Tying -/

def tiePrivilegeDeniedText : String :=
  "Недостаточно привилегий для вызова этой команды"

def botAdminRequiredText : String :=
  "Назначьте бота администратором чата с правом приглашать пользователей и повторите /tie."

/-- The answer to the pressed button. -/
def answerUpdate (update : TelegramGroupUpdate) (request : String) (text : Option String) :
    ChatAct Unit := do
  reply (← one (.answerCallback (update.callbackQueryId.getD "")
    s!"telegram-chat:{update.updateId}:{request}" text))

def eventForToken (token : String) : ChatAct (Option Event) := do
  let events ← within (unarchivedEvents bot)
  match events.filter fun event => eventToken event.eventId = token with
  | [] => return none
  | [event] => return some event
  | _ => raise (.runtimeError "Telegram tie callback token collision")

/-- The invite link of a chat that has just been bound, and whether this attempt stored it; `none`
when the bot may not make one. -/
def tieInviteLink (update : TelegramGroupUpdate) (event : Event) :
    ChatAct (Option (String × Bool)) := do
  let bound ← within (events (.get event.eventId))
  match bound.filter fun bound => bound.telegramChatId = some update.chatId with
  | none => raise (.runtimeError "Telegram chat binding was not persisted")
  | some bound =>
    match bound.telegramChatInviteLink with
    | some inviteLink => return some (inviteLink, false)
    | none =>
      match ← one (.ensurePrimaryInviteLink update.chatId
          s!"telegram-chat:{update.updateId}:invite") with
      | .failed => raise (.integration "exportChatInviteLink")
      | .forbidden => return none
      | .link inviteLink =>
        let _ ← one (.setTelegramChatInviteLink event.eventId update.chatId inviteLink)
        let stored ← within (events (.get event.eventId))
        if stored.bind Event.telegramChatInviteLink = some inviteLink then
          return some (inviteLink, true)
        else raise (.runtimeError "Telegram chat invite link was not persisted")

/-- The confirmed players of the main roster are sent the link by the worker. -/
def announceInviteLink (update : TelegramGroupUpdate) (event : Event) (inviteLink : String) :
    ChatAct Unit := do
  match update.actorUserId with
  | none => raise (.runtimeError "Telegram chat binding has no actor")
  | some userId =>
    let _ ← within (enqueue bot .sendConfirmedNotification event.eventId .telegram userId
      (.notification inviteLink) {} s!"telegram-chat:{update.updateId}:send-confirmed-link" none)

def tieConfirmation (event : Event) (inviteLinkCreated : Bool) : String :=
  if inviteLinkCreated then
    s!"Чат был привязан к игре {event.name}.\n\n" ++
    "Ссылка сохранена и поставлена в очередь на отправку подтверждённым игрокам основного состава."
  else s!"Этот чат уже привязан к игре {event.name}. Ссылка повторно не отправлена."

def deletePicker (update : TelegramGroupUpdate) : ChatAct Unit := do
  match update.messageId with
  | none => return ()
  | some messageId =>
    reply (← one (.deleteMessage update.chatId messageId
      s!"telegram-chat:{update.updateId}:delete-picker"))

/-- `_tie`. -/
def tie (update : TelegramGroupUpdate) (event : Event) : ChatAct Unit := do
  if ← one (.bindTelegramChat event.eventId update.chatId) then
    match ← tieInviteLink update event with
    | none => answerUpdate update "bot-admin-required" (some botAdminRequiredText)
    | some (inviteLink, inviteLinkCreated) =>
      ChatAct.whenever inviteLinkCreated (announceInviteLink bot update event inviteLink)
      answerUpdate update "answered" none
      deletePicker update
      reply (← one (.sendMessage update.chatId s!"telegram-chat:{update.updateId}:confirmation"
        (tieConfirmation event inviteLinkCreated) []))
  else answerUpdate update "conflict" (some "Этот чат или игра уже привязаны.")

/-- The button of a game that is gone: the picker is shown anew. -/
def tieMissing (update : TelegramGroupUpdate) : ChatAct Unit := do
  let (privileged, events) ← within (tieableEvents bot update)
  if !privileged then answerUpdate update "privilege-denied" (some tiePrivilegeDeniedText)
  else if !(← actorHasChatAdminRight update) then
    answerUpdate update "denied" (some "Недостаточно прав.")
  else
    answerUpdate update "missing" (some "Игра больше недоступна.")
    showPicker eventToken update events

/-- `_handle_callback` for the button of a game. -/
def handleCallback (update : TelegramGroupUpdate) : ChatAct Unit := do
  match afterPrefix "tie:e:" (update.callbackData.getD "") with
  | none => return ()
  | some token =>
    match ← eventForToken bot eventToken token with
    | none => tieMissing bot eventToken update
    | some event =>
      if !(← within (actorCanTieEvent update event)) then
        answerUpdate update "privilege-denied" (some tiePrivilegeDeniedText)
      else if !(← actorHasChatAdminRight update) then
        answerUpdate update "denied" (some "Недостаточно прав.")
      else tie bot update event

end LarpBot
