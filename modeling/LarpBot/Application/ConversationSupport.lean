import LarpBot.Application.ProfileFields

/-!
# Messages, buttons and dialogs

The vocabulary of the gateway's conversation. A handler gets the user as read and returns the user
as it leaves it, with the response: the row is stored by `_save` when the whole message has been
handled. Of the dialogs, the profile's are modelled next to this module; `Dialogs` stands for the
others, with what they have in common: they store no row but their own user's, and they leave the
update that this row names alone.
-/

namespace LarpBot

open Atomic Act

/-! ## Messages -/

structure InboundMessage where
  identity : BotIdentity
  updateId : String
  text : String := ""
  callback : Option String := none
  hasUnsupportedContent : Bool := false
  chatId : Option Int := none
  peerId : Option Int := none
  telegramUsername : Option String := none
deriving DecidableEq, Repr

structure BotResponse where
  text : String
  buttons : List Button := []
  deferred : Bool := false
  commandEnqueued : Bool := false
  silent : Bool := false
deriving DecidableEq, Repr

/-- What a handler leaves: the row of its user, and the response. -/
abbrev Turn := User × BotResponse

/-! ## Contexts -/

namespace DialogContext

variable (context : DialogContext)

/-- `context.get(name)`. -/
def get (name : String) : Option ContextValue :=
  (context.find? name).map Prod.snd

/-- `context[name] = value`. -/
def set (name : String) (value : ContextValue) : DialogContext :=
  context.insert (name, value)

def setText (name value : String) : DialogContext :=
  context.set name (.text value)

/-- `context[name]`. -/
def lookup (name : String) : Act ContextValue :=
  match context.get name with
  | some value => .done value
  | none => raise .keyError

/-- `context.get(name) == value`. -/
def holds (name value : String) : Bool :=
  match context.get name with
  | some (.text stored) => stored = value
  | _ => false

end DialogContext

/-- `bool(value)`. -/
def ContextValue.truth : ContextValue → Bool
  | null => false
  | flag value => value
  | number value => value ≠ 0
  | text value => value ≠ ""
  | list values => !values.isEmpty
  | record fields => !fields.isEmpty

/-- `str(value)` of a plain value; a dialog asks for no other. -/
def ContextValue.str : ContextValue → String
  | null => "None"
  | flag value => if value then "True" else "False"
  | number value => toString value
  | text value => value
  | list _ | record _ => ""

def ContextValue.ofOption : Option String → ContextValue
  | none => null
  | some value => text value

namespace User

variable (user : User)

def dialogState : String := user.base.dialogState

def dialogContext : DialogContext := user.base.dialogContext

def inState (state : String) : User :=
  user.mapBase fun base => { base with dialogState := state }

def withContext (context : DialogContext) : User :=
  user.mapBase fun base => { base with dialogContext := context }

/-- `_clear`. -/
def clear : User :=
  user.mapBase fun base => { base with dialogState := "IDLE", dialogContext := Table.empty }

/-- `new_user`: system identities have no profiles. -/
def new : Platform → Nat → Except Fault User
  | .telegram, userId => .ok (.telegram { tgId := userId })
  | .vk, userId => .ok (.vk { vkId := userId })
  | .system, _ => .error (.valueError "system identities do not have user profiles")

end User

/-! ## Labels and texts -/

def profileLabel : String := "📝 Профиль"
def editProfileLabel : String := "Редактировать профиль"
def refillProfileLabel : String := "Заполнить профиль заново"
def profileEdited : String := "Профиль успешно изменён!"
def removeNicknameLabel : String := "Убрать никнейм"
def backLabel : String := "⬅️ Назад"
def cancelDialog : String := "Отмена"
def skipLabel : String := "Пропустить"
def adminMenu : String := "Администрирование"

def adminMenuButton : Button := ⟨adminMenu, adminMenu⟩

def unsupportedContentResponse : String :=
  "Пока я понимаю только текст и кнопки. Отправьте ответ текстовым сообщением."

def welcomeText : String :=
  "Привет! Этот бот поможет зарегистрироваться на кабинетные ролевые игры.\n\n" ++
    "Сначала заполните профиль и запишитесь на игру, даже если пока не уверены, что сможете прийти. " ++
    "У вас ещё будет время подтвердить или отменить участие — мы сообщим, когда откроется подтверждение."

def profileFormat : String := "combined-full-name-v2-statistics-experience"

def venueAddress : String := "Старая Басманная улица, д, 21/4"

def cyrillicFullNamePrompt : String := "Введите ФИО кириллицей (фамилию имя, если отчества нету):"
def latinFullNamePrompt : String := "Введите ФИО латиницей (фамилию имя, если отчества нету):"

def cyrillicFullNameRetryPrompt : String :=
  "Введите ФИО кириллицей, либо фамилию имя, если отчества нету"

def latinFullNameRetryPrompt : String :=
  "Введите ФИО латиницей, либо фамилию имя, если отчества нету"

def phonePrompt : String := "Введите ваш номер телефона. Он необходим для оформления пропуска."
def emailPrompt : String := "Введите ваш email. Он необходим для оформления пропуска."

def nicknamePrompt : String :=
  "Ваш никнейм - то, как вы будете отображаться в публичных таблицах записи на игры. " ++
    "Важно - организатором будет видно введенное вами паспортное имя!\n\n" ++
    "Пожалуйста, используйте узнаваемый никнейм. Если хотите, можете добавить в никнейм ваше имя, " ++
    "например \"Канеки Кен/Eyepatch\"."

def crossplayPrompt : String := "Готовы ли вы играть за персонажа противоположного пола?"
def citizenshipPrompt : String := "Есть ли у вас российское гражданство?"

def needsPassPrompt : String :=
  s!"Нужен ли вам пропуск для входа на место проведения игры ({venueAddress})?"

/-- Whether a profile that was complete is being edited. -/
def DialogContext.edits (context : DialogContext) : Bool :=
  context.holds "profile_flow" "field" || context.holds "profile_flow" "reset"

def profileDialogExitButton (user : User) : Button :=
  ⟨if user.dialogContext.edits then cancelDialog else mainMenuButton.label, cancelDialog⟩

def profileYesNoButtons (user : User) : List Button :=
  [⟨"Да", "Да"⟩, ⟨"Нет", "Нет"⟩, profileDialogExitButton user]

def nicknameButtons (user : User) : List Button :=
  (if user.base.nickname.isSome then [⟨removeNicknameLabel, "profile:nickname:clear"⟩] else []) ++
    [profileDialogExitButton user]

/-! ## The other dialogs -/

/-- A call that stores no row, or that of one user with the update it named. -/
def Call.Minds (user : User) : Call → Prop
  | .users (.save stored) =>
    stored.identity = user.identity ∧ stored.base.lastUpdateId = user.base.lastUpdateId
  | _ => True

/-- The programs of a conversation with one user. -/
@[reducible] def Minding {α : Type} (user : User) (Q : α → Prop) (p : Act α) : Prop :=
  p.Makes (fun _ _ => True) (Call.Minds user) Q

/-- A row of the same user that names the same update. -/
def User.Succeeds (user : User) (reply : Turn) : Prop :=
  reply.1.identity = user.identity ∧ reply.1.base.lastUpdateId = user.base.lastUpdateId

structure Dialogs where
  /-- The deployment resolves VK names to numbers. -/
  resolvesVkUsers : Bool
  main : User → String → Act BotResponse
  hasAdminAccess : User → Act Bool
  userRoleLabel : User → Act String
  selectEvent : User → InboundMessage → String → Act Turn
  adminMenu : User → Act Turn
  moderatorManagementMenu : User → Act Turn
  adminGameAction : User → InboundMessage → String → Act Turn
  /-- The steps of the dialogs other than the profile's. -/
  continueDialog : User → InboundMessage → String → Act Turn
  /-- The commands of an idle user other than the profile's. -/
  startCommand : User → InboundMessage → String → Act Turn
  minds_main : ∀ user text, Minding user (fun _ => True) (main user text)
  minds_access : ∀ user, Minding user (fun _ => True) (hasAdminAccess user)
  minds_role : ∀ user, Minding user (fun _ => True) (userRoleLabel user)
  minds_select : ∀ user message value,
    Minding user user.Succeeds (selectEvent user message value)
  minds_admin : ∀ user, Minding user user.Succeeds (adminMenu user)
  minds_moderators : ∀ user, Minding user user.Succeeds (moderatorManagementMenu user)
  minds_game : ∀ user message value,
    Minding user user.Succeeds (adminGameAction user message value)
  minds_continue : ∀ user message value,
    Minding user user.Succeeds (continueDialog user message value)
  minds_start : ∀ user message value,
    Minding user user.Succeeds (startCommand user message value)

end LarpBot
