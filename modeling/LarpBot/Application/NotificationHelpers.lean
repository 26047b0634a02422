import LarpBot.Application.ServiceSupport

/-!
# Rosters, chat links and texts

The pure part of `application/notification_helpers.py`, `table_links.py` and of the text builders
of `notification_services.py`.
-/

namespace LarpBot

open Atomic

/-! ## Chat links -/

/-- `value.strip()`. -/
def pythonStrip (value : String) : List Char :=
  ((value.toList.dropWhile isPythonSpace).reverse.dropWhile isPythonSpace).reverse

/-- The text before and after the first character that passes a test, without that character. -/
def cutAt (p : Char → Bool) (cs : List Char) : List Char × List Char :=
  (cs.takeWhile (! p ·), (cs.dropWhile (! p ·)).drop 1)

/-- The parts of a URL that `is_plain_chat_link` looks at. -/
structure SplitUrl where
  scheme : List Char
  netloc : List Char
  path : List Char
  /-- Whether the query and the fragment are both empty. -/
  bare : Bool

def asciiLower (cs : List Char) : List Char :=
  cs.map Char.toLower

/-- `urlsplit` of a text without white space. A text without a scheme has none of the schemes that
are asked for, so it is not split further. -/
def urlsplit (candidate : List Char) : Option SplitUrl :=
  -- urlsplit drops leading control characters
  let url := candidate.dropWhile fun c => c.toNat ≤ 0x20
  let (scheme, rest) := cutAt (· = ':') url
  if url.contains ':' && (scheme.head?.any fun c => c.isAlpha) &&
      scheme.all (fun c => c.isAlphanum || c ∈ ['+', '-', '.']) then
    let authority := if ['/', '/'].isPrefixOf rest then rest.drop 2 else []
    let netloc := authority.takeWhile fun c => c ∉ ['/', '?', '#']
    let tail := if ['/', '/'].isPrefixOf rest then authority.drop netloc.length else rest
    let beforeFragment := tail.takeWhile (· ≠ '#')
    let path := beforeFragment.takeWhile (· ≠ '?')
    some ⟨asciiLower scheme, netloc, path,
      (beforeFragment.drop path.length).length ≤ 1 && (tail.drop beforeFragment.length).length ≤ 1⟩
  else none

def telegramChatHosts : List String :=
  ["t.me", "www.t.me", "telegram.me", "www.telegram.me", "telegram.dog", "www.telegram.dog"]

def vkChatHosts : List String :=
  ["vk.me", "www.vk.me"]

/-- A path without the slash that may end it. -/
def withoutFinalSlash (path : List Char) : List Char :=
  if path.getLast? = some '/' then path.dropLast else path

def isWordCharacter (extra : List Char) (c : Char) : Bool :=
  c.isAlphanum || c = '_' || c ∈ extra

/-- `_TELEGRAM_CHAT_PATH_RE.fullmatch(path)`. -/
def isTelegramChatPath (path : List Char) : Bool :=
  let word (cs : List Char) := !cs.isEmpty && cs.all (isWordCharacter ['-'])
  match withoutFinalSlash path with
  | '/' :: '+' :: code => word code
  | '/' :: name =>
    ("joinchat/".toList.isPrefixOf name && word (name.drop "joinchat/".length)) ||
      ((name.head?.any fun c => c.isAlpha) && (name.drop 1).all (isWordCharacter []) &&
        4 ≤ name.length && name.length ≤ 32)
  | _ => false

/-- `_VK_CHAT_PATH_RE.fullmatch(path)`. -/
def isVkChatPath (path : List Char) : Bool :=
  let path := withoutFinalSlash path
  "/join/".toList.isPrefixOf path &&
    ((path.drop "/join/".length).splitOn '/').all fun part =>
      !part.isEmpty && part.all (isWordCharacter ['+', '=', '-'])

/-- Recognize a message consisting solely of a Telegram or VK chat link. -/
def isPlainChatLink (bot : Deployment) (value : String) : Bool :=
  let candidate := pythonStrip value
  if candidate.isEmpty || candidate.any isPythonSpace then false
  else match urlsplit candidate with
    | none => false
    | some url =>
      let (host, port) := cutAt (· = ':') url.netloc
      let host := bot.casefold (String.ofList (asciiLower host))
      (url.scheme = "http".toList || url.scheme = "https".toList) &&
        -- credentials, a port and a bracketed address are refused
        port.isEmpty && url.netloc.all (fun c => c ∉ ['@', '[', ']']) && url.bare &&
        (if host ∈ telegramChatHosts then isTelegramChatPath url.path
        else host ∈ vkChatHosts && isVkChatPath url.path)

/-! ## Rosters -/

/-- `_active_main_roster` of an event. -/
def activeMainRoster (registrations : List Registration) (event : Event) : List Registration :=
  mainRoster event registrations

/-- Stored chat links belong only to confirmed players inside the active main roster. -/
def chatLinkRecipientKeys (registrations : List Registration) (event : Event) :
    List ParticipantKey :=
  ((activeMainRoster registrations event).filter (·.attendanceStatus = .confirmed)).map
    Registration.participantKey

/-- Keep the saved confirmation-sift moves that still match the current roster. -/
def currentSiftEntries (snapshot : List String) (registrations : List Registration)
    (event : Event) : List String :=
  let inMain (key : ParticipantKey) : Bool :=
    (activeMainRoster registrations event).any (·.participantKey = key)
  let status (key : ParticipantKey) : Option AttendanceStatus :=
    (registrations.find? (·.participantKey = key)).map Registration.attendanceStatus
  snapshot.filter fun entry =>
    match parseSiftSnapshotEntry entry with
    | none => false
    | some (.promoted, key) => status key = some .confirmed && inMain key
    | some (.demoted, key) => status key = some .waiting && !inMain key

/-! ## Texts -/

/-- `TableProviderLinks.for_player` of the public table; `none` stands for its `RuntimeError`. -/
def publicTableLinksForPlayer (event : Event) : Option String :=
  let yandex := if event.publicTablePublicUrl = event.publicTableGoogleUrl then none
    else event.publicTablePublicUrl
  match event.publicTableGoogleUrl, yandex with
  | some google, some yandex => some s!"Google Drive: {google}\nЯндекс Диск: {yandex}"
  | some google, none => some s!"Google Drive: {google}"
  | none, some yandex => some yandex
  | none, none => none

def stripped (value : String) : String :=
  String.ofList (pythonStrip value)

def playerNotificationText (eventName message : String) (gameDate : Option GameDate) : String :=
  s!"Сообщение от мастеров игры {eventReference eventName gameDate}:\n\n{stripped message}"

def confirmedNotificationText (bot : Deployment) (eventName message : String)
    (gameDate : Option GameDate) : String :=
  let cleanMessage := stripped message
  if isPlainChatLink bot cleanMessage then
    s!"Вы в основном составе игры {eventReference eventName gameDate}. " ++
      s!"Вступите в чат: {cleanMessage}"
  else playerNotificationText eventName cleanMessage gameDate

def cancellationMasterText (event : Event) (playerName : String) (nickname : Option String)
    (confirmed sameDayReplacement : Bool) : String :=
  let status := if confirmed then "подтверждено" else "не подтверждено"
  "\n".intercalate <|
    [s!"Отмена участия в игре {eventReference event.name event.gameDate}", "",
      s!"Игрок: {playerName}"] ++
    (nickname.map fun name => s!"Никнейм: {name}").toList ++
    [s!"Статус участия: {status}"] ++
    if sameDayReplacement then
      ["", "Причина: игрок подтвердил участие в другой игре в тот же день."]
    else []

/-- `len(text.encode("utf-16-le")) // 2`. -/
def messageLength (text : String) : Nat :=
  (text.toList.map fun c => if c.toNat < 0x10000 then 1 else 2).sum

def maxMessageLength : Nat := 4096

def masterNoShowWarning : String :=
  "Если вы не придете на игру, ничего нам не сообщив, к вам могут быть применены санкции " ++
    "Ролевого Клуба"

/-- Link the profile on the platform where the master uses the bot. -/
def masterProfileUrl (identity : BotIdentity) (profile : Option User) : Option String :=
  if identity.platform = .vk then some s!"https://vk.com/id{identity.platformUserId}"
  else match profile with
    | some (.telegram user) => user.telegramHandle.map fun handle =>
      "https://t.me/" ++ (afterPrefix "@" handle).getD handle
    | _ => none

def eventMastersText (masters : List (BotIdentity × Option User)) : String :=
  let lines := masters.filterMap fun (identity, profile) =>
    let name := (profile.bind fun user => user.base.fullName).filter (· ≠ "")
    let parts := (name.map surnameAndName).toList ++ (masterProfileUrl identity profile).toList
    if parts.isEmpty then none else some (" — ".intercalate parts)
  if lines.isEmpty then "" else "Мастера игры:\n" ++ "\n".intercalate lines

/-- Name the masters and ask players to warn them before skipping the game. -/
def masterContactsSection (masters : List (BotIdentity × Option User)) : String :=
  let profiles := masters.filterMap fun (identity, profile) => masterProfileUrl identity profile
  let links := " ".intercalate profiles
  let contacts := if profiles.isEmpty then "." else s!": {links} ."
  let disclaimer := "Если вы решите не участвовать в игре, пожалуйста сообщите об этом " ++
    s!"мастерам{contacts} {masterNoShowWarning}"
  let mastersText := eventMastersText masters
  if mastersText = "" then disclaimer else s!"{mastersText}\n\n{disclaimer}"

def enlistmentSuccessText (event : Event) (queuePosition : Nat)
    (masters : List (BotIdentity × Option User)) (sameDayWarning : Bool)
    (answerId : Option String) : Except Fault String := do
  let capacity ← match answerCapacity event answerId with
    | some capacity => .ok capacity
    | none => .error .missingAnswer
  if event.publicTablePublicUrl.isNone then
    throw (.runtimeError "public game table is not initialized")
  let links ← match publicTableLinksForPlayer event with
    | some links => .ok links
    | none => .error (.runtimeError "table has no public link")
  let tableText :=
    s!"Актуальный список записавшихся и состав можно посмотреть здесь: {links}"
  let greeting := s!"Вы записались на игру {eventReference event.name event.gameDate}!\n\n"
  let positionText :=
    if queuePosition ≤ capacity then s!"{greeting}Сейчас вы в основном составе.\n\n{tableText}"
    else s!"{greeting}Сейчас вы в запасе. Перед вами: {queuePosition - capacity}.\n\n" ++
      "Если вы перейдёте в основной состав, бот сообщит об этом отдельным сообщением.\n\n" ++
      tableText
  let confirmationText :=
    if event.status = .confirmationOpen then
      let deadlineText := (event.confirmationDeadline.map fun deadline =>
        s!" до {formatConfirmationDeadline deadline} (мск)").getD ""
      "Когда будете уверены, что сможете прийти на игру, " ++
        s!"подтвердите участие{deadlineText}."
    else
      "Подтверждение участия пока не открыто. Мы обязательно пришлём вам уведомление, " ++
        "когда можно будет подтвердиться."
  let answerText := match event.registrationQuestion.bind fun q => q.option answerId with
    | some option => s!"\n\nВаш ответ: {option.name}"
    | none => ""
  let warningText := match sameDayWarning, event.gameDate with
    | true, some gameDate => s!"\n\n{sameDaySignupWarning gameDate}"
    | _, _ => ""
  let text := s!"{positionText}\n\n{confirmationText}\n\n" ++
    "Пожелания по соигрокам всегда можно изменить позже через «🎭 Пожелания по игре»." ++
    answerText ++ warningText
  let mastersText := eventMastersText masters
  return if mastersText = "" then text else s!"{text}\n\n{mastersText}"

/-- The longest head of a text that fits a budget of UTF-16 code units. -/
def fitting (budget : Int) : List Char → List Char
  | [] => []
  | c :: cs =>
    let left := budget - (if c.toNat < 0x10000 then 1 else 2)
    if left < 0 then [] else c :: fitting left cs

def confirmationSuccessText (event : Event) (characterWish : String) (inMainRoster : Bool)
    (masters : List (BotIdentity × Option User)) : String :=
  let linkText := if inMainRoster then "Мастера скоро отправят вам ссылку на чат игры!\n\n" else ""
  let compose (wish : String) : String :=
    s!"✅ Участие в игре {eventReference event.name event.gameDate} подтверждено.\n\n" ++
      s!"{linkText}Пожелания по персонажу:\n{wish}\n\n" ++
      "Позже их можно изменить через «🎭 Пожелания по игре».\n\n" ++ masterContactsSection masters
  let text := compose characterWish
  let excess : Int := messageLength text - maxMessageLength
  if excess ≤ 0 then text
  else
    -- only the echo is shortened; the stored wish stays complete
    let budget := messageLength characterWish - excess - 1
    let kept := fitting budget characterWish.toList
    compose (String.ofList (kept.reverse.dropWhile isPythonSpace).reverse ++ "…")

end LarpBot
