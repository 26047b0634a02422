import LarpBot.Application.ConversationSupport
import LarpBot.Application.Statistics

/-!
# The profile dialog

`conversation_profiles.py`: the questionnaire that fills a profile and the edits of single fields.
Both walk through the `PROFILE_` states, and a message means what the state of its user makes of it.
-/

namespace LarpBot

open Atomic Act

variable (bot : Deployment) (dialogs : Dialogs)

/-! ## Prompts -/

/-- Enter a state and put its question. -/
def ask (user : User) (state text : String) (buttons : User → List Button) : Turn :=
  (user.inState state, { text := text, buttons := buttons user })

/-- Stay in the state and put the question again. -/
def askAgain (user : User) (text : String) (buttons : User → List Button) : Act Turn :=
  return (user, { text := text, buttons := buttons user })

def exitOnly (user : User) : List Button :=
  [profileDialogExitButton user]

def skipOrExit (user : User) : List Button :=
  [⟨skipLabel, skipLabel⟩, profileDialogExitButton user]

def chooseYesOrNo (user : User) : Act Turn :=
  askAgain user "Выберите «Да» или «Нет»." profileYesNoButtons

def askCrossplay (user : User) : Turn :=
  ask user "PROFILE_CROSSPLAY" crossplayPrompt profileYesNoButtons

def askNeedsPass (user : User) : Turn :=
  ask user "PROFILE_NEEDS_PASS" needsPassPrompt profileYesNoButtons

def askCitizenship (user : User) : Turn :=
  ask user "PROFILE_PASS_FOREIGNER" citizenshipPrompt profileYesNoButtons

def askLatinName (user : User) : Turn :=
  ask user "PROFILE_PASS_FULL_NAME_LATIN" latinFullNamePrompt exitOnly

def askPhone (user : User) : Turn :=
  ask user "PROFILE_PASS_PHONE" phonePrompt exitOnly

def askEmail (user : User) : Turn :=
  ask user "PROFILE_PASS_EMAIL_ADDRESS" emailPrompt exitOnly

/-- `_profile_contact_prompt`. -/
def profileContactPrompt (user : User) : Turn :=
  match user with
  | .telegram _ =>
    ask user "PROFILE_CONTACT" "Введите обязательную ссылку на вашу страницу VK:" exitOnly
  | .vk _ =>
    ask user "PROFILE_CONTACT"
      ("Укажите имя пользователя Telegram в формате @username или ссылку https://t.me/username. " ++
        "Если Telegram нет, нажмите «Пропустить».") skipOrExit

/-! ## Showing a profile -/

def boolText (value : Option Bool) : String :=
  if value = some true then "Да" else "Нет"

def passName (parts : List String) : String :=
  " ".intercalate (parts.filter (· ≠ "-"))

/-- `_profile_lines`. -/
def profileLines (user : User) (role : String) (contacts : List String) : List String :=
  let base := user.base
  let fullName := match base.passDetails with
    | none => base.fullName.getD "не указано"
    | some details =>
      passName [details.surnameCyrillic, details.nameCyrillic, details.patronymCyrillic]
  [s!"ФИО: {fullName}", "Никнейм: " ++ base.nickname.getD "не указан", s!"Статус: {role}"] ++
    contacts ++
    [s!"Кросспол: {boolText base.crossplay}", s!"Нужен пропуск: {boolText base.needsPass}"] ++
    match base.passDetails with
    | none => []
    | some details =>
      let latin := [details.surnameLatin, details.nameLatin, details.patronymLatin].filterMap id
      [s!"Номер телефона: {details.mobilePhone}", s!"Email: {details.email}",
        s!"Российское гражданство: {boolText (some !details.foreigner)}"] ++
        if details.foreigner then [s!"ФИО латиницей: {passName latin}"] else []

def contactLabel : User → String
  | .telegram _ => "Профиль ВКонтакте"
  | .vk _ => "Профиль Telegram"

def profileResponse (user : User) (heading : Option String) : Act Turn := do
  let contact := match user with
    | .telegram profile => profile.vkUrl
    | .vk profile => profile.telegramHandle
  let role ← dialogs.userRoleLabel user
  let lines := ["Профиль", ""] ++
    profileLines user role [s!"{contactLabel user}: " ++ contact.getD "не указан"]
  let text := "\n".intercalate lines
  return (user, {
    text := (heading.map fun heading => s!"{heading}\n\n{text}").getD text
    buttons := [mainMenuButton, ⟨editProfileLabel, "profile:menu"⟩] })

def profileEditMenu (user : User) : Turn :=
  let base := user.base
  let fields : List Button :=
    [⟨refillProfileLabel, "profile:reset"⟩, ⟨"ФИО", "profile:field:name"⟩,
      ⟨"Никнейм", "profile:field:nickname"⟩, ⟨contactLabel user, "profile:field:contact"⟩,
      ⟨"Кросспол", "profile:field:crossplay"⟩, ⟨"Пропуск", "profile:field:pass"⟩]
  let passFields : List Button := match base.needsPass, base.passDetails with
    | some true, some details =>
      [⟨"Номер телефона", "profile:field:phone"⟩, ⟨"Email", "profile:field:email"⟩,
        ⟨"Гражданство", "profile:field:citizenship"⟩] ++
        if details.foreigner then [⟨"ФИО латиницей", "profile:field:latin-name"⟩] else []
    | _, _ => []
  (user, { text := "Что вы хотите изменить?",
           buttons := fields ++ passFields ++ [⟨backLabel, profileLabel⟩] })

/-! ## Starting -/

def beginProfile (user : User) (editingExisting : Bool := false)
    (signupEventId : Option EventId := none) : Turn :=
  let context := DialogContext.setText Table.empty "profile_format" profileFormat
  let context := context.setText "profile_flow" (if editingExisting then "reset" else "initial")
  let context := match signupEventId with
    | none => context
    | some eventId => context.setText "signup_event_id" eventId
  let text := if editingExisting then cyrillicFullNamePrompt
    else "Перед записью на игру необходимо обязательно заполнить профиль.\n\n" ++
      cyrillicFullNamePrompt
  ask (user.withContext context) "PROFILE_FULL_NAME_CYRILLIC" text exitOnly

/-- `context.update(details.model_dump())`. -/
def DialogContext.withDetails (context : DialogContext) (details : PassDetails) : DialogContext :=
  [("surname_cyrillic", ContextValue.text details.surnameCyrillic),
    ("name_cyrillic", .text details.nameCyrillic),
    ("patronym_cyrillic", .text details.patronymCyrillic), ("foreigner", .flag details.foreigner),
    ("surname_latin", .ofOption details.surnameLatin), ("name_latin", .ofOption details.nameLatin),
    ("patronym_latin", .ofOption details.patronymLatin),
    ("mobile_phone", .text details.mobilePhone), ("email", .text details.email)].foldl
    (fun context entry => context.set entry.1 entry.2) context

/-- The context of a field edit: the questionnaire as it stands. -/
def fieldContext (user : User) (field : String) : Except Fault DialogContext :=
  let context := ((DialogContext.setText Table.empty "profile_format" profileFormat).setText
    "profile_flow" "field").setText "profile_field" field
  match user.base.passDetails, user.base.fullName with
  | some details, _ => .ok (context.withDetails details)
  | none, none => .ok context
  | none, some fullName => match (pythonSplit fullName).take 2 with
    | [surname, name] => .ok (((context.setText "surname_cyrillic" surname).setText
        "name_cyrillic" name).setText "patronym_cyrillic" "-")
    | _ => .error (.valueError "not enough values to unpack")

def beginProfileField (user : User) (field : String) : Act Turn := do
  let user := user.withContext (← value (fieldContext user field))
  match field, user.base.passDetails with
  | "name", _ => return ask user "PROFILE_FULL_NAME_CYRILLIC" cyrillicFullNamePrompt exitOnly
  | "nickname", _ => return ask user "PROFILE_NICKNAME" nicknamePrompt nicknameButtons
  | "contact", _ => return profileContactPrompt user
  | "crossplay", _ => return askCrossplay user
  | "pass", _ => return askNeedsPass user
  | "phone", some _ => return askPhone user
  | "email", some _ => return askEmail user
  | "citizenship", some _ => return askCitizenship user
  | "latin-name", some details =>
    return if details.foreigner then askLatinName user else profileEditMenu user
  | _, _ => return profileEditMenu user

/-! ## Storing -/

/-- The number of a match of `https://vk\.com/id([1-9][0-9]*)`. -/
def vkNumber (url : String) : Option Nat :=
  match (afterPrefix "https://vk.com/id" url).map String.toList with
  | some (c :: cs) =>
    if c ≠ '0' && (c :: cs).all Char.isDigit then
      some ((c :: cs).foldl (fun number c => number * 10 + (c.toNat - '0'.toNat)) 0)
    else none
  | _ => none

/-- The VK account behind a Telegram profile: an unresolved name is logged and leaves none. -/
def resolvedVkId (user : TelegramUser) (forceVkResolution : Bool) : Act (Option Nat) :=
  if forceVkResolution || user.linkedVkId.isNone then
    match user.vkUrl with
    | none => return none
    | some url => match vkNumber url with
      | some number => return some number
      | none =>
        if dialogs.resolvesVkUsers then do
          let found ← outside (.resolveUserId url)
          return found.join
        else return none
  else return user.linkedVkId

/-- `_refresh_telegram_link`. -/
def refreshTelegramLink (user : TelegramUser) (forceVkResolution : Bool) : Act TelegramUser := do
  let linkedVkId ← resolvedVkId dialogs user forceVkResolution
  users (.updateTelegramLink user.tgId user.telegramHandle linkedVkId)
  return { user with linkedVkId := linkedVkId }

/-- The link of a Telegram profile is refreshed; a VK profile has none of its own. -/
def refreshLink (user : User) (forceVkResolution : Bool) : Act User :=
  match user with
  | .telegram profile => do return .telegram (← refreshTelegramLink dialogs profile forceVkResolution)
  | .vk profile => return .vk profile

/-- `ProfileSyncPayload(names=…)`. -/
def profileSyncNames (names : List String) : Except Fault (List String) :=
  let clean := (names.map fun name => String.ofList (pythonStrip name)).filter (· ≠ "")
  if names.length < 1 ∨ names.length > 2 ∨ clean = [] then
    .error (.valueError "profile sync requires at least one name")
  else .ok clean.eraseDups

/-- Hand profile enrichment and projection fanout to the ordered worker. -/
def enqueueProfileSync (platform : Platform) (userId : Nat) (names : List String)
    (idempotencyKey : String) : Act Unit := do
  let names ← value (profileSyncNames names)
  present "queue" (← outside (.publish
    { operationId := bot.uuid5 s!"larp-bot:{platform.value}:{userId}:{idempotencyKey}"
      eventId := s!"profile:{platform.value}:{userId}"
      operation := .syncProfile
      platform := platform
      platformUserId := userId
      payload := .profileSync names
      group_fits := by simp [groupFits] }))

/-- `sorted(names)` of a set. -/
def sortedNames (names : List String) : List String :=
  sortBy id names.eraseDups

/-- Store the profile, and tell the worker of it. -/
def publishProfile (user : User) (message : InboundMessage) (names : List String) : Act Unit := do
  users (.save user)
  enqueueProfileSync bot message.identity.platform message.identity.platformUserId
    (sortedNames names) s!"{message.updateId}:SYNC_PROFILE"

/-- `_complete_profile_edit`. -/
def completeProfileEdit (user : User) (message : InboundMessage)
    (previousName : Option String := none) : Act Turn := do
  let user ← refreshLink dialogs user false
  publishProfile bot user message ([previousName, user.base.fullName].filterMap id)
  profileResponse dialogs user.clear (some profileEdited)

/-- `_pass_details_from_context`. -/
def passDetailsFromContext (context : DialogContext) : Act PassDetails := do
  let text (name : String) : Act String := do return (← context.lookup name).str
  let foreigner := (← context.lookup "foreigner").truth
  let latin (name : String) : Act (Option String) :=
    if foreigner then do return some (← text name) else return none
  let details : PassDetails :=
    { surnameCyrillic := ← text "surname_cyrillic"
      nameCyrillic := ← text "name_cyrillic"
      patronymCyrillic := ← text "patronym_cyrillic"
      foreigner := foreigner
      surnameLatin := ← latin "surname_latin"
      nameLatin := ← latin "name_latin"
      patronymLatin := ← latin "patronym_latin"
      mobilePhone := ← text "mobile_phone"
      email := ← text "email" }
  value details.modelValidate

def requiredPass (needsPass : Bool) (context : DialogContext) : Act (Option PassDetails) := do
  if needsPass then
    let details ← passDetailsFromContext context
    return some details
  else return none

/-- `validate_assignment`: what is assigned to a row has to leave it valid. -/
def assigned (user : User) : Act User :=
  value (if user.isValid bot then .ok user else .error (.valueError "User"))

def User.withPass (user : User) (needsPass : Bool) (details : Option PassDetails) : User :=
  user.mapBase fun base => { base with needsPass := some needsPass, passDetails := details }

def User.withDetails (user : User) (details : PassDetails) : User :=
  user.mapBase fun base => { base with passDetails := some details }

def User.named (user : User) (fullName : String) : User :=
  user.mapBase fun base => { base with fullName := some fullName }

/-- The contact of a finished questionnaire: a page of VK, or a handle of Telegram. -/
def storeContact (user : User) (context : DialogContext) : Act User :=
  match user with
  | .telegram profile => do
    let contact ← context.lookup "contact"
    let user ← assigned bot (.telegram { profile with vkUrl := some contact.str })
    refreshLink dialogs user true
  | .vk profile =>
    let handle := match context.get "contact" with
      | none | some .null => none
      | some contact => some contact.str
    assigned bot (.vk { profile with telegramHandle := handle })

/-- `_finish_profile`. -/
def finishProfile (user : User) (message : InboundMessage) : Act Turn := do
  let context := user.dialogContext
  let fullName := (← context.lookup "full_name").str
  let crossplay := (← context.lookup "crossplay").truth
  let needsPass := (← context.lookup "needs_pass").truth
  let names := [some fullName, user.base.fullName].filterMap id
  let user ← assigned bot
    ((user.named fullName).mapBase fun base => { base with crossplay := some crossplay })
  let details ← requiredPass needsPass context
  let user ← assigned bot (user.withPass needsPass details)
  let user ← storeContact bot dialogs user context
  publishProfile bot user message names
  if context.holds "profile_flow" "reset" then
    profileResponse dialogs user.clear (some profileEdited)
  else match context.get "signup_event_id" with
    | some (.text eventId) => do
      let (user, response) ← dialogs.selectEvent user.clear message s!"select:enlist:{eventId}"
      return (user, { response with text := s!"✅ Профиль успешно заполнен.\n\n{response.text}" })
    | _ => return (user.clear, { text := "✅ Профиль успешно заполнен.", buttons := [mainMenuButton] })

/-! ## The questionnaire -/

/-- The three parts of a name in a context, under the suffix of their alphabet. -/
def DialogContext.setName (context : DialogContext) (alphabet : String)
    (parts : String × String × Option String) : DialogContext :=
  ((context.setText s!"surname_{alphabet}" parts.1).setText s!"name_{alphabet}" parts.2.1).setText
    s!"patronym_{alphabet}" (parts.2.2.getD "-")

/-- `(context["patronym_cyrillic"] == "-") != (patronym == "-")`. -/
def patronymsDiffer (context : DialogContext) (parts : String × String × Option String) : Act Bool := do
  let stored ← context.lookup "patronym_cyrillic"
  let stands := match stored with
    | .text text => text == "-"
    | _ => false
  return stands != (parts.2.2.getD "-" == "-")

/-- One message of the questionnaire. -/
def questionnaireStep (user : User) (message : InboundMessage) (value : String) : Act Turn := do
  let context := user.dialogContext
  match user.dialogState with
  | "PROFILE_FULL_NAME_CYRILLIC" => match parseFullName value .cyrillic with
    | none => askAgain user cyrillicFullNameRetryPrompt exitOnly
    | some parts =>
      let context := (context.setName "cyrillic" parts).setText "full_name" (surnameAndName value)
      return askNeedsPass (user.withContext context)
  | "PROFILE_NEEDS_PASS" =>
    if value ≠ "Да" ∧ value ≠ "Нет" then chooseYesOrNo user
    else
      let user := user.withContext (context.set "needs_pass" (.flag (value = "Да")))
      return if value = "Да" then askCitizenship user else profileContactPrompt user
  | "PROFILE_CONTACT" => match user with
    | .telegram _ => match normalizeVkUrl bot value with
      | .error text => askAgain user s!"❌ {text}. Попробуйте ещё раз:" exitOnly
      | .ok url => return askCrossplay (user.withContext (context.setText "contact" url))
    | .vk _ =>
      if value = skipLabel then return askCrossplay (user.withContext (context.set "contact" .null))
      else match normalizeVkTelegramContact bot value with
        | none => askAgain user "Не удалось разобрать профиль Telegram. Попробуйте ещё раз" skipOrExit
        | some handle => return askCrossplay (user.withContext (context.setText "contact" handle))
  | "PROFILE_CROSSPLAY" =>
    if value ≠ "Да" ∧ value ≠ "Нет" then chooseYesOrNo user
    else
      let user := user.withContext (context.set "crossplay" (.flag (value = "Да")))
      finishProfile bot dialogs user message
  | "PROFILE_PASS_FOREIGNER" =>
    if value ≠ "Да" ∧ value ≠ "Нет" then chooseYesOrNo user
    else
      let user := user.withContext (context.set "foreigner" (.flag (value = "Нет")))
      return if value = "Нет" then askLatinName user else askPhone user
  | "PROFILE_PASS_FULL_NAME_LATIN" => match parseFullName value .latin with
    | none => askAgain user latinFullNameRetryPrompt exitOnly
    | some parts =>
      if ← patronymsDiffer context parts then askAgain user latinFullNameRetryPrompt exitOnly
      else return askPhone (user.withContext (context.setName "latin" parts))
  | "PROFILE_PASS_PHONE" => match normalizeMobilePhone value with
    | none => askAgain user s!"Некорректный номер. {phonePrompt}" exitOnly
    | some phone => return askEmail (user.withContext (context.setText "mobile_phone" phone))
  | "PROFILE_PASS_EMAIL_ADDRESS" => match validatePassEmail value with
    | none => askAgain user s!"Некорректный email. {emailPrompt}" exitOnly
    | some email => return profileContactPrompt (user.withContext (context.setText "email" email))
  | _ => raise .assertionError

/-! ## Edits of one field -/

/-- `assert details is not None`. -/
def storedDetails (user : User) : Act PassDetails :=
  match user.base.passDetails with
  | some details => .done details
  | none => raise .assertionError

/-- Store an amended questionnaire, if it is valid. -/
def amendDetails (user : User) (details : PassDetails) : Act User := do
  let details ← value details.modelValidate
  assigned bot (user.withDetails details)

/-- The name of a field edit; a foreigner whose patronym comes or goes is asked for the Latin name
too. -/
def nameFieldStep (user : User) (message : InboundMessage) (text : String)
    (parts : String × String × Option String) : Act Turn := do
  let (surname, name, patronym) := parts
  let patronym := patronym.getD "-"
  let context := (user.dialogContext.setName "cyrillic" parts).setText "full_name"
    (surnameAndName text)
  let user := user.withContext context
  let previousName := user.base.fullName
  match user.base.passDetails with
  | none =>
    let user ← assigned bot (user.named (surnameAndName text))
    completeProfileEdit bot dialogs user message previousName
  | some details =>
    if details.foreigner && (details.patronymCyrillic == "-") != (patronym == "-") then
      return askLatinName user
    else
      let user ← amendDetails bot user { details with
        surnameCyrillic := surname, nameCyrillic := name, patronymCyrillic := patronym }
      let user ← assigned bot (user.named (surnameAndName text))
      completeProfileEdit bot dialogs user message previousName

def contactFieldStep (user : User) (message : InboundMessage) (text : String) : Act Turn := do
  match user with
  | .telegram profile => match normalizeVkUrl bot text with
    | .error error => askAgain user s!"❌ {error}. Попробуйте ещё раз:" exitOnly
    | .ok url =>
      let user ← assigned bot (.telegram { profile with vkUrl := some url })
      let user ← refreshLink dialogs user true
      completeProfileEdit bot dialogs user message
  | .vk profile =>
    if text = skipLabel then
      let user ← assigned bot (.vk { profile with telegramHandle := none })
      completeProfileEdit bot dialogs user message
    else match normalizeVkTelegramContact bot text with
      | none => askAgain user "Не удалось разобрать профиль Telegram. Попробуйте ещё раз" skipOrExit
      | some handle =>
        let user ← assigned bot (.vk { profile with telegramHandle := some handle })
        completeProfileEdit bot dialogs user message

/-- The citizenship of a questionnaire that is on file; Latin names are asked for when they are
missing. -/
def citizenshipFieldStep (user : User) (message : InboundMessage) (foreigner : Bool) : Act Turn := do
  let details ← storedDetails user
  if foreigner && !details.foreigner then
    return askLatinName user
  else
    let user ← amendDetails bot user { details with
      foreigner := foreigner
      surnameLatin := if foreigner then details.surnameLatin else none
      nameLatin := if foreigner then details.nameLatin else none
      patronymLatin := if foreigner then details.patronymLatin else none }
    completeProfileEdit bot dialogs user message

/-- The Latin name that completes an edit of the name, of the citizenship or of itself. -/
def latinFieldStep (user : User) (message : InboundMessage) (field : String)
    (parts : String × String × Option String) : Act Turn := do
  let context := user.dialogContext
  let details ← storedDetails user
  let surname ← context.lookup "surname_cyrillic"
  let name ← context.lookup "name_cyrillic"
  let patronym ← context.lookup "patronym_cyrillic"
  let previousName := user.base.fullName
  let user ← amendDetails bot user { details with
    surnameCyrillic := surname.str
    nameCyrillic := name.str
    patronymCyrillic := patronym.str
    foreigner := true
    surnameLatin := some parts.1
    nameLatin := some parts.2.1
    patronymLatin := some (parts.2.2.getD "-") }
  if field = "name" then
    let fullName ← context.lookup "full_name"
    let user ← assigned bot (user.named fullName.str)
    completeProfileEdit bot dialogs user message previousName
  else completeProfileEdit bot dialogs user message

/-- `_profile_field_step`. -/
def profileFieldStep (user : User) (message : InboundMessage) (text : String) : Act Turn := do
  let context := user.dialogContext
  let field := (← context.lookup "profile_field").str
  match user.dialogState with
  | "PROFILE_NICKNAME" =>
    let rename (nickname : Option String) : Act Turn := do
      let user ← assigned bot (user.mapBase fun base => { base with nickname := nickname })
      completeProfileEdit bot dialogs user message
    if text = "profile:nickname:clear" then rename none
    else match normalizeNickname text with
      | some nickname => rename (some nickname)
      | none =>
        askAgain user
          s!"Никнейм должен быть одной строкой длиной до 100 символов.\n\n{nicknamePrompt}"
          nicknameButtons
  | "PROFILE_FULL_NAME_CYRILLIC" => match parseFullName text .cyrillic with
    | none => askAgain user cyrillicFullNameRetryPrompt exitOnly
    | some parts => nameFieldStep bot dialogs user message text parts
  | "PROFILE_CONTACT" => contactFieldStep bot dialogs user message text
  | "PROFILE_CROSSPLAY" =>
    if text ≠ "Да" ∧ text ≠ "Нет" then chooseYesOrNo user
    else
      let user ← assigned bot (user.mapBase fun base => { base with crossplay := some (decide (text = "Да")) })
      completeProfileEdit bot dialogs user message
  | "PROFILE_NEEDS_PASS" =>
    if text ≠ "Да" ∧ text ≠ "Нет" then chooseYesOrNo user
    else if text = "Нет" then
      let user ← assigned bot (user.withPass false none)
      completeProfileEdit bot dialogs user message
    else if user.base.needsPass = some true ∧ user.base.passDetails.isSome then
      completeProfileEdit bot dialogs user message
    else return askCitizenship user
  | "PROFILE_PASS_FOREIGNER" =>
    if text ≠ "Да" ∧ text ≠ "Нет" then chooseYesOrNo user
    else
      let foreigner : Bool := text = "Нет"
      let user := user.withContext (context.set "foreigner" (.flag foreigner))
      if field = "pass" then
        return if foreigner then askLatinName user else askPhone user
      else citizenshipFieldStep bot dialogs user message foreigner
  | "PROFILE_PASS_FULL_NAME_LATIN" => match parseFullName text .latin with
    | none => askAgain user latinFullNameRetryPrompt exitOnly
    | some parts =>
      if ← patronymsDiffer context parts then askAgain user latinFullNameRetryPrompt exitOnly
      else
        let user := user.withContext ((context.setName "latin" parts).set "foreigner" (.flag true))
        if field = "pass" then return askPhone user
        else latinFieldStep bot dialogs user message field parts
  | "PROFILE_PASS_PHONE" => match normalizeMobilePhone text with
    | none => askAgain user s!"Некорректный номер. {phonePrompt}" exitOnly
    | some phone =>
      let user := user.withContext (context.setText "mobile_phone" phone)
      if field = "pass" then return askEmail user
      else
        let details ← storedDetails user
        let user ← amendDetails bot user { details with mobilePhone := phone }
        completeProfileEdit bot dialogs user message
  | "PROFILE_PASS_EMAIL_ADDRESS" => match validatePassEmail text with
    | none => askAgain user s!"Некорректный email. {emailPrompt}" exitOnly
    | some email =>
      let user := user.withContext (context.setText "email" email)
      if field = "pass" then
        let details ← passDetailsFromContext user.dialogContext
        let user ← assigned bot (user.withPass true (some details))
        completeProfileEdit bot dialogs user message
      else
        let details ← storedDetails user
        let user ← amendDetails bot user { details with email := email }
        completeProfileEdit bot dialogs user message
  | _ => raise .assertionError

/-- `_profile_step`. -/
def profileStep (user : User) (message : InboundMessage) (text : String) : Act Turn :=
  let context := user.dialogContext
  if !context.holds "profile_format" profileFormat then
    let (user, response) := beginProfile user
    return (user, { response with text := s!"Формат профиля обновился. {response.text}" })
  else if context.holds "profile_flow" "field" then profileFieldStep bot dialogs user message text
  else questionnaireStep bot dialogs user message text

end LarpBot
