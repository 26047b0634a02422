import LarpBot.Application.ConversationProfiles

/-!
# The conversation

`BotEngine.handle`: one message of a user, from the row that is read to the row that is saved. A
message whose number the row names is dropped; any other one is routed by its text, its button and
the state of the dialog, and its number takes the place of the one before.
-/

namespace LarpBot

open Atomic Act

/-! ## Texts and states that route a message -/

def startsWith (start value : String) : Bool :=
  start.toList.isPrefixOf value.toList

def adminActions : List String :=
  ["Управление статистикой", "Ссылки на таблицы статистики", "Добавить игру в статистику",
    "➕ Создать игру", "Управление играми", "Архив игр", "Таблицы участников и пропусков",
    "Файлы игры", "Изменить игру", "Изменить название и дату", "🔄 Изменить статус",
    "👥 Изменить количество игроков", "Уведомления", "Запланированные события",
    "🔔 Напомнить о подтверждении", "Отправить подтвержденным ссылку на чат",
    "Отправить подтвержденным сообщение", "Уведомить всех игроков", "📣 Уведомить подтвердивших",
    "👥 Не подтвердившие участие", "🗑 Удалить игрока", "Управление игроками",
    "📋 Список профилей игроков", "Подвинуть игрока в основную сессию",
    "Убрать не подтвердившихся в запас", "Удалить не подтвердившихся",
    "🎫 Создать таблицу пропусков", "🔗 Ссылки на таблицы пропусков", "admin:passes:daily",
    "Управление ролями", "Управление модераторами", "➕ Назначить модератора",
    "➕ Модератор-наблюдатель", "➕ Менеджер пропусков", "➖ Снять роль", "📋 Список ролей", "Мастера",
    "➕ Добавить мастера", "➖ Удалить мастера", "📋 Список мастеров", "📦 Архивировать игру",
    "📤 Разархивировать игру", "🗑 Удалить игру", "📋 Список игр"]

def legacyStatusActions : List String :=
  ["🔓 Открыть подтверждения", "🔒 Закрыть подтверждения", "🔒 Закрыть регистрацию"]

/-- Whether a reply without buttons leads back to the administration. -/
def isAdminBranch (user : User) (text : String) : Bool :=
  startsWith "ADMIN_" user.dialogState || text ∈ ["🛠 Администрирование", adminMenu] ||
    text ∈ adminActions || text ∈ legacyStatusActions ||
    ["ag:", "mod:", "master:", "stats:", "select:admin-", "page:admin-", "page:a:", "page:r:"].any
      (startsWith · text)

/-- The states that take a message as the text of an answer. -/
def freeTextDialogStates : List String :=
  ["PROFILE_FULL_NAME_CYRILLIC", "PROFILE_NICKNAME", "PROFILE_CONTACT",
    "PROFILE_PASS_FULL_NAME_LATIN", "PROFILE_PASS_PHONE", "PROFILE_PASS_EMAIL_ADDRESS",
    "ENLIST_WISH_PLAY", "ENLIST_ANSWER", "ANSWER_EDIT", "ADMIN_QUESTION_CREATE_TEXT",
    "ADMIN_QUESTION_CREATE_NAME", "ADMIN_QUESTION_CREATE_CAPACITY", "ADMIN_QUESTION_EDIT_VALUE",
    "CONFIRM_WISH", "CHARACTER_EDIT", "CO_PLAYER_EDIT", "ADMIN_CREATE_NAME", "ADMIN_CREATE_DATE",
    "ADMIN_CREATE_CLOSE_TIME", "ADMIN_CREATE_PLAYER_AMOUNT", "ADMIN_CREATE_MASTER_CHOICE",
    "ADMIN_CREATE_MASTER_PICK", "ADMIN_CREATE_MASTER_PLATFORM", "ADMIN_CREATE_MASTER_PROFILE",
    "ADMIN_CREATE_MASTER_PROMOTE_CONFIRM", "ADMIN_CREATE_SCHEDULE_CHOICE",
    "ADMIN_CREATE_SCHEDULE_TIME", "ADMIN_CREATE_CONFIRMATION_SCHEDULE_CHOICE",
    "ADMIN_CREATE_CONFIRMATION_SCHEDULE_TIME", "ADMIN_CREATE_CONFIRMATION_DEADLINE",
    "ADMIN_SCHEDULE_REGISTRATION_TIME", "ADMIN_SCHEDULE_CONFIRMATION_TIME",
    "ADMIN_SCHEDULE_CONFIRMATION_DEADLINE", "ADMIN_SCHEDULE_CLOSE_TIME",
    "ADMIN_UPDATE_PLAYER_AMOUNT", "ADMIN_UPDATE_GAME_NAME", "ADMIN_UPDATE_GAME_DATE",
    "ADMIN_POST_LINK_TELEGRAM", "ADMIN_POST_LINK_VK", "ADMIN_CONFIRMATION_DEADLINE",
    "ADMIN_NOTIFICATION_LINK_TEXT", "ADMIN_NOTIFICATION_MESSAGE_TEXT", "ADMIN_NOTIFICATION_CONFIRM",
    "ADMIN_NOTIFICATION_TEXT", "ADMIN_GAMEMASTER_PROFILE", "ADMIN_EVENT_LEADER_PROFILE",
    "ADMIN_MODERATOR_LIST", "ADMIN_MODERATOR_REMOVE", "ADMIN_MODERATOR_REMOVE_CONFIRM",
    "ADMIN_EVENT_LEADER_ADD_PICK", "ADMIN_EVENT_LEADER_PROMOTE_CONFIRM",
    "ADMIN_EVENT_LEADER_REMOVE", "ADMIN_EVENT_LEADER_REMOVE_CONFIRM", "ADMIN_EVENT_LEADER_LIST",
    "ADMIN_ARCHIVE_NAME", "ADMIN_DELETE_NAME", "ADMIN_REMOVE_PICK", "ADMIN_REMOVE_CONFIRM",
    "ADMIN_REMOVE_WAITING_CONFIRM", "ADMIN_WAITING_PICK", "ADMIN_PROFILES_PICK",
    "ADMIN_RESERVE_PROMOTION_PICK", "ADMIN_RESERVE_PROMOTION_CONFIRM"]

/-- The parameter of `(?:[ =](\S+))?` at the end of a command; `none` if the text does not match. -/
def startTail : List Char → Option (Option (List Char))
  | [] => some none
  | c :: parameter =>
    if (c = ' ' || c = '=') && !parameter.isEmpty && !parameter.any isPythonSpace then
      some (some parameter)
    else none

/-- `_start_command`: whether the text is the start command, and the signup token it carries. -/
def startCommandOf (text : String) (message : InboundMessage) : Bool × Option String :=
  if message.identity.platform = .vk then (text = "Начать" ∨ text = "/start", none)
  else match (afterPrefix "/start" text).map String.toList with
    | none => (false, none)
    | some tail =>
      let name := (tail.drop 1).takeWhile (isWordCharacter [])
      let tail := if tail.head? = some '@' && isTelegramName (String.ofList name) then
        tail.drop (name.length + 1) else tail
      match startTail tail with
      | none => (false, none)
      | some none => (true, none)
      | some (some parameter) =>
        let isToken := parameter.length ≤ 64 && parameter.all (isWordCharacter ['-'])
        (true, if isToken then some (String.ofList parameter) else none)

/-- `(message.callback or message.text).strip()`. -/
def InboundMessage.value (message : InboundMessage) : String :=
  let text := match message.callback with
    | none | some "" => message.text
    | some callback => callback
  String.ofList (pythonStrip text)

/-! ## Routing -/

variable (bot : Deployment) (dialogs : Dialogs)

/-- `_start_game_signup`. -/
def startGameSignup (user : User) (message : InboundMessage) (event : Event) : Act Turn := do
  let now ← outside .now
  if event.registrationIsOpen now then
    dialogs.selectEvent user message s!"select:enlist:{event.eventId}"
  else match event.registrationOpenAt with
    | none => raise .assertionError
    | some opensAt =>
      let response ← dialogs.main user
        (s!"Регистрация на игру {eventReference event.name event.gameDate} ещё не открыта. " ++
          s!"Она откроется {formatConfirmationDeadline opensAt} (МСК).")
      return (user, response)

/-- The main menu under a text; the user stays as it is. -/
def mainMenuReply (user : User) (text : String) : Act Turn := do
  let response ← dialogs.main user text
  return (user, response)

/-- The event of a signup link, unless it is archived. -/
def signupEvent (token : Option String) : Act (Option Event) := do
  match token with
  | none => return none
  | some token =>
    let event ← value (← events (.getBySignupToken token))
    return event.filter fun event => event.archivedAt.isNone

/-- The start command: a signup link goes on to its game once the profile is complete. -/
def startOver (user : User) (message : InboundMessage) (token : Option String) : Act Turn := do
  let user := user.clear
  let event ← signupEvent token
  if !user.profileComplete then
    let (user, response) := beginProfile user false (event.map Event.eventId)
    return (user, { response with text := s!"{welcomeText}\n\n{response.text}" })
  else match event with
    | some event => startGameSignup dialogs user message event
    | none => mainMenuReply dialogs user welcomeText

/-- `_continue`. -/
def continueState (user : User) (message : InboundMessage) (text : String) : Act Turn :=
  if startsWith "PROFILE_" user.dialogState then profileStep bot dialogs user message text
  else dialogs.continueDialog user message text

/-- `_start`. -/
def startIdle (user : User) (message : InboundMessage) (text : String) : Act Turn :=
  if text = profileLabel then
    if user.profileComplete then profileResponse dialogs user none else return beginProfile user
  else if text = "profile:menu" then
    return if user.profileComplete then profileEditMenu user else beginProfile user
  else if text = "profile:reset" ∨ text = "profile:edit" then
    return beginProfile user user.profileComplete
  else match afterPrefix "profile:field:" text with
    | some field =>
      if user.profileComplete then beginProfileField user field else return beginProfile user
    | none => dialogs.startCommand user message text

/-- Leave the dialog; an edit of the profile goes back to the profile. -/
def cancelCurrent (user : User) : Act Turn :=
  if startsWith "PROFILE_" user.dialogState && user.dialogContext.edits then
    profileResponse dialogs user.clear (some profileEdited)
  else mainMenuReply dialogs user.clear "Действие отменено."

def staleButtonResponse (user : User) : BotResponse where
  text := "Эта кнопка устарела. Используйте текущую клавиатуру из последнего сообщения бота " ++
    "или отправьте ответ текстом. Если вы увидели это сообщение, " ++
    "попробуйте написать боту /start"
  buttons := user.base.lastBotButtons

/-- The branches of `handle` for a message with content that the bot understands. -/
def route (user : User) (message : InboundMessage) (text : String) : Act Turn :=
  if user.dialogState ∈ freeTextDialogStates ∧ message.callback.isSome ∧
      text ∉ user.base.lastBotButtons.map Button.value ∧ text ≠ mainMenu ∧ text ≠ adminMenu then
    return (user, staleButtonResponse user)
  else if text ∈ ["/menu", mainMenu, backLabel] then mainMenuReply dialogs user.clear welcomeText
  else if text = cancelDialog then cancelCurrent dialogs user
  else if text ∈ ["Управление ролями", "Управление модераторами"] then
    dialogs.moderatorManagementMenu user.clear
  else if text = adminMenu then dialogs.adminMenu user.clear
  else if ["ag:manage:", "ag:edit:", "ag:files:", "ag:masters:", "ag:players:",
      "ag:notifications:", "ag:schedule"].any (startsWith · text) then
    dialogs.adminGameAction user.clear message text
  else if user.dialogState ≠ "IDLE" then continueState bot dialogs user message text
  else startIdle dialogs user message text

/-- A response without buttons gets the way back. -/
def withWayBack (isAdmin : Bool) (user : User) (response : BotResponse) : Act BotResponse :=
  if user.dialogState = "IDLE" ∧ response.silent = false ∧ response.buttons = [] then
    if isAdmin then do
      let access ← dialogs.hasAdminAccess user
      return { response with buttons := [if access then adminMenuButton else mainMenuButton] }
    else return { response with buttons := [mainMenuButton] }
  else return response

/-- The row keeps the buttons of the response. -/
def withButtons (isAdmin : Bool) (reply : Turn) : Act Turn := do
  let (user, response) := reply
  let response ← withWayBack dialogs isAdmin user response
  return (user.mapBase fun base => { base with lastBotButtons := response.buttons }, response)

/-! ## One message -/

/-- The handle that a Telegram message shows is taken over, with its link. -/
def refreshHandle (user : User) (message : InboundMessage) : Act User := do
  match user with
  | .vk profile => return .vk profile
  | .telegram profile =>
    let handle ← value (normalizeTelegramHandle bot message.telegramUsername)
    let renamed := { profile with telegramHandle := handle }
    if profile.telegramHandle ≠ handle ∨ (profile.vkUrl.isSome ∧ profile.linkedVkId = none) then
      return .telegram (← refreshTelegramLink dialogs renamed false)
    else return .telegram renamed

/-- The message is answered. -/
def answerMessage (user : User) (message : InboundMessage) : Act Turn := do
  let text := message.value
  let (isStart, token) := startCommandOf text message
  let isAdmin := isAdminBranch user text
  if isStart then
    let reply ← startOver dialogs user message token
    withButtons dialogs isAdmin reply
  else if message.hasUnsupportedContent then
    return (user, { text := unsupportedContentResponse, buttons := user.base.lastBotButtons })
  else
    let reply ← route bot dialogs user message text
    withButtons dialogs isAdmin reply

/-- The row that `_save` stores. -/
def User.handled (user : User) (updateId : String) (now : Time) : User :=
  user.mapBase fun base => { base with lastUpdateId := some updateId, updatedAt := now }

/-- Handle a message that the row does not name: what there is to store, and the response. -/
def settle (user : User) (message : InboundMessage) : Act Turn := do
  let user ← refreshHandle bot dialogs user message
  let (user, response) ← answerMessage bot dialogs user message
  let now ← outside .now
  return (user.handled message.updateId now, response)

/-- `_save`, and the response that goes with it. -/
def storeReply (reply : Turn) : Act BotResponse := do
  users (.save reply.1)
  return reply.2

/-- A message that has been handled gets no second answer. -/
def silentResponse (platform : Platform) : BotResponse where
  text := ""
  silent := true
  deferred := decide (platform = .telegram)

/-- What `handle` does with the row that it has read. -/
def handleFor (user : User) (message : InboundMessage) : Act BotResponse := do
  if user.base.lastUpdateId = some message.updateId then
    return silentResponse message.identity.platform
  else
    let reply ← settle bot dialogs user message
    storeReply reply

/-- `await self.users.get(platform, uid) or new_user(platform, uid)`, of what was stored. -/
def storedOrNew (identity : BotIdentity) : Option User → Act User
  | some user => .done user
  | none => value (User.new identity.platform identity.platformUserId)

/-- `BotEngine.handle`. -/
def handle (message : InboundMessage) : Act BotResponse := do
  let stored ← users (.get message.identity.platform message.identity.platformUserId)
  let user ← storedOrNew message.identity stored
  handleFor bot dialogs user message

end LarpBot
