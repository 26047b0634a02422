import LarpBot.Application.RegistrationMembers

/-!
# The fields of a profile

What the profile questionnaire accepts, from the validators of `domain/models.py`. A validator takes
the text of a message and answers with the stored form, or with the text of its `ValueError`.
-/

namespace LarpBot

/-! ## Names -/

inductive Alphabet
  | cyrillic
  | latin
deriving DecidableEq, Repr

/-- `[А-ЯЁа-яё]` or `[A-Za-z]`. -/
def Alphabet.letter : Alphabet → Char → Bool
  | .cyrillic, c => ('А' ≤ c && c ≤ 'я') || c = 'Ё' || c = 'ё'
  | .latin, c => c.isAlpha

/-- The signs that join the words of one part of a full name. -/
def Alphabet.joint : Alphabet → Char → Bool
  | .cyrillic, c => c = '-'
  | .latin, c => c = '-' || c = '\''

/-- `_CYRILLIC_FULL_NAME_PART_RE` and `_LATIN_FULL_NAME_PART_RE`: `afterLetter` says whether the
character before this text was a letter. -/
def isNamePart (alphabet : Alphabet) (afterLetter : Bool) : List Char → Bool
  | [] => afterLetter
  | c :: cs =>
    if alphabet.letter c then isNamePart alphabet true cs
    else afterLetter && alphabet.joint c && isNamePart alphabet false cs

/-- Split a two- or three-part full name without treating hyphens as separators. -/
def parseFullName (value : String) (alphabet : Alphabet) :
    Option (String × String × Option String) :=
  let parts := pythonSplit value
  if (" ".intercalate parts).length > 300 ||
      parts.any (fun part => part.length > 100 || !isNamePart alphabet false part.toList) then none
  else match parts with
    | [surname, name] => some (surname, name, none)
    | [surname, name, patronym] => some (surname, name, some patronym)
    | _ => none

/-- `_CYRILLIC_NAME_RE` and `_LATIN_NAME_RE`: at most a hundred letters and signs, with a letter at
each end. -/
def isPassName (alphabet : Alphabet) (value : List Char) : Bool :=
  let inner (c : Char) := alphabet.letter c || c = ' ' || c = '-' ||
    (alphabet = .latin && c = '\'')
  value.length ≤ 100 && value.head?.any alphabet.letter && value.getLast?.any alphabet.letter &&
    value.all inner

/-! ## Nickname, phone and email -/

/-- The `White_Space` of Unicode, on which the schema library trims and matches. -/
def isUnicodeSpace (c : Char) : Bool :=
  isPythonSpace c && c ∉ ['\x1c', '\x1d', '\x1e', '\x1f']

/-- Normalize a one-line public nickname entered in the profile editor. -/
def normalizeNickname (value : String) : Option String :=
  let clean := ((value.toList.dropWhile isUnicodeSpace).reverse.dropWhile isUnicodeSpace).reverse
  if clean.isEmpty || clean.length > 100 || clean.any (fun c => c = '\r' || c = '\n') then none
  else some (String.ofList clean)

/-- `_PHONE_RE` and the count of digits. -/
def normalizeMobilePhone (value : String) : Option String :=
  let clean := pythonStrip value
  let number := if clean.head? = some '+' then clean.drop 1 else clean
  let rest := number.drop 1
  if (number.head?.any Char.isDigit) && 7 ≤ rest.length && rest.length ≤ 23 &&
      rest.all (fun c => c.isDigit || c ∈ [' ', '(', ')', '-']) &&
      10 ≤ clean.countP Char.isDigit && clean.countP Char.isDigit ≤ 15 then
    some (String.ofList clean)
  else none

/-- `^[^=\s@][^\s@]*@[^\s@]+\.[^\s@]+$`, at most 254 characters. -/
def isPassEmail (value : List Char) : Bool :=
  value.length ≤ 254 && !value.any isUnicodeSpace &&
    match value.splitOn '@' with
    | [mailbox, host] =>
      mailbox.head?.any (· ≠ '=') && (host.drop 1).dropLast.contains '.'
    | _ => false

/-- Validate an email before a dialogue is allowed to leave its email step. -/
def validatePassEmail (value : String) : Option String :=
  let clean := pythonStrip value
  if isPassEmail clean then some (String.ofList clean) else none

/-! ## The pass questionnaire -/

/-- `PassDetails.model_validate`: the parts of the names by their alphabets, and Latin names for a
foreigner only. -/
def PassDetails.isValid (details : PassDetails) : Bool :=
  let cyrillic (value : String) := isPassName .cyrillic value.toList
  let latin (value : String) := isPassName .latin value.toList
  let latinParts := [details.surnameLatin, details.nameLatin, details.patronymLatin]
  cyrillic details.surnameCyrillic && cyrillic details.nameCyrillic &&
    (details.patronymCyrillic = "-" || cyrillic details.patronymCyrillic) &&
    details.surnameLatin.all latin && details.nameLatin.all latin &&
    details.patronymLatin.all (fun value => value = "-" || latin value) &&
    (normalizeMobilePhone details.mobilePhone).isSome && isPassEmail details.email.toList &&
    (if details.foreigner then latinParts.all Option.isSome &&
      (details.patronymCyrillic == "-") == (details.patronymLatin == some "-")
    else latinParts.all Option.isNone)

def PassDetails.modelValidate (details : PassDetails) : Except Fault PassDetails :=
  if details.isValid then .ok details else .error (.valueError "PassDetails")

/-! ## Contacts -/

/-- `parsed.hostname`: without the user before the last `@` and the port. -/
def SplitUrl.hostname (bot : Deployment) (url : SplitUrl) : String :=
  let hostinfo := (url.netloc.reverse.takeWhile (· ≠ '@')).reverse
  bot.casefold (String.ofList (asciiLower (cutAt (· = ':') hostinfo).1))

/-- The port as it is written. -/
def SplitUrl.portText (url : SplitUrl) : List Char :=
  (cutAt (· = ':') (url.netloc.reverse.takeWhile (· ≠ '@')).reverse).2

/-- `if "://" not in candidate`. -/
def hasScheme (candidate : List Char) : Bool :=
  candidate.tails.any ("://".toList.isPrefixOf ·)

/-- `if "://" not in candidate: candidate = f"https://{candidate}"`, without the line breaks and tabs that
`urlsplit` drops. -/
def withHttps (candidate : List Char) : List Char :=
  (if hasScheme candidate then candidate else "https://".toList ++ candidate).filter fun c =>
    c ∉ ['\t', '\r', '\n']

/-- What `urlsplit` raises on an authority. -/
def authorityRefusal (bot : Deployment) (netloc : List Char) : Option String :=
  if netloc.contains '[' ≠ netloc.contains ']' then some "Invalid IPv6 URL"
  else if netloc.all fun c => c.toNat < 128 && c ≠ '[' then none
  else bot.authorityError netloc

/-- What `urlsplit` raises on a text, whether it has a scheme or not. -/
def urlsplitError (bot : Deployment) (candidate : List Char) : Option String :=
  let url := candidate.dropWhile fun c => c.toNat ≤ 0x20
  let (scheme, rest) := cutAt (· = ':') url
  let rest := if url.contains ':' && (scheme.head?.any fun c => c.isAlpha) &&
    scheme.all (fun c => c.isAlphanum || c ∈ ['+', '-', '.']) then rest else url
  if ['/', '/'].isPrefixOf rest then
    authorityRefusal bot ((rest.drop 2).takeWhile fun c => c ∉ ['/', '?', '#'])
  else none

/-- A text that `urlsplit` takes, if need be with a scheme. An authority in brackets that it takes is
a numeric address, which is no host that is asked for. -/
def splitHttps (bot : Deployment) (candidate : List Char) : Option SplitUrl :=
  (urlsplit (withHttps candidate)).filter fun url =>
    url.netloc.all (fun c => c ∉ ['[', ']']) && (authorityRefusal bot url.netloc).isNone

def vkHosts : List String :=
  ["vk.com", "www.vk.com", "m.vk.com", "vk.ru", "www.vk.ru", "m.vk.ru"]

/-- `_VK_PATH_RE.fullmatch(path)`. -/
def isVkPath (path : List Char) : Bool :=
  let name := (withoutFinalSlash path).drop 1
  path.head? = some '/' && 1 ≤ name.length && name.length ≤ 100 &&
    name.all (isWordCharacter ['.', '-'])

/-- Nothing catches what `urlsplit` raises here. -/
def normalizeVkUrl (bot : Deployment) (value : String) : Except String String :=
  let candidate := pythonStrip value
  if candidate.isEmpty || candidate = ['-'] then .error "Укажите ссылку на страницу VK"
  else match splitHttps bot candidate with
    | none => .error ((urlsplitError bot (withHttps candidate)).getD "Нужна HTTPS-ссылка на vk.com или vk.ru")
    | some url =>
      if url.scheme ≠ "https".toList || url.hostname bot ∉ vkHosts then
        .error "Нужна HTTPS-ссылка на vk.com или vk.ru"
      else if !isVkPath url.path || !url.bare then .error "Некорректный адрес страницы VK"
      else .ok ("https://vk.com/" ++ String.ofList ((withoutFinalSlash url.path).drop 1))

def telegramProfileHosts : List String :=
  ["t.me", "www.t.me", "telegram.me", "www.telegram.me"]

/-- The handle of a match of `_VK_TELEGRAM_MENTION_RE`. -/
def vkTelegramMention (candidate : List Char) : Option (List Char) :=
  let (number, handle) := cutAt (· = '|') (candidate.drop "[id".length)
  if "[id".toList.isPrefixOf candidate && number.all Char.isDigit &&
      number.head?.any (· ≠ '0') && handle.getLast? = some ']' && handle.head? = some '@' &&
      isTelegramName (String.ofList (handle.drop 1).dropLast) then some handle.dropLast
  else none

/-- The handle of a text, where a handle is asked for. -/
def handleOf (bot : Deployment) (text : List Char) : Except Fault String := do
  match ← normalizeTelegramHandle bot (some (String.ofList text)) with
  | some handle => return handle
  | none => throw (.valueError "Некорректная ссылка на профиль Telegram")

/-- Normalize a Telegram @handle or public profile URL. -/
def normalizeTelegramProfile (bot : Deployment) (value : String) : Except Fault String :=
  let stripped := pythonStrip value
  let candidate := (vkTelegramMention stripped).getD stripped
  if candidate.head? = some '@' then handleOf bot candidate
  else match splitHttps bot candidate with
    | none => .error (.valueError "Нужна ссылка t.me или @username")
    | some url =>
      if url.scheme ≠ "https".toList || url.hostname bot ∉ telegramProfileHosts ||
          !url.portText.isEmpty || !url.bare then
        .error (.valueError "Нужна ссылка t.me или @username")
      else match (url.path.splitOn '/').filter fun part => !part.isEmpty with
        | [part] => handleOf bot part
        | _ => .error (.valueError "Некорректная ссылка на профиль Telegram")

/-! ## Posts -/

/-- `[1-9][0-9]*`. -/
def isPostNumber (cs : List Char) : Bool :=
  cs.head?.any (· ≠ '0') && cs.all Char.isDigit

/-- `[A-Za-z][A-Za-z0-9_]{3,31}`. -/
def isChannelName (cs : List Char) : Bool :=
  cs.head?.any Char.isAlpha && cs.all (isWordCharacter []) && 4 ≤ cs.length && cs.length ≤ 32

/-- `_TELEGRAM_POST_PATH_RE.fullmatch(path)`. -/
def isTelegramPostPath (path : List Char) : Bool :=
  match (withoutFinalSlash path).splitOn '/' with
  | [[], channel, post] => isChannelName channel && isPostNumber post
  | [[], ['s'], channel, post] => isChannelName channel && isPostNumber post
  | [[], ['c'], chat, post] => isPostNumber chat && isPostNumber post
  | [[], ['s'], ['c'], chat, post] => isPostNumber chat && isPostNumber post
  | _ => false

/-- `_VK_POST_PATH_RE.fullmatch(path)`. -/
def isVkPostPath (path : List Char) : Bool :=
  let wall := (withoutFinalSlash path).drop "/wall".length
  let owner := if wall.head? = some '-' then wall.drop 1 else wall
  let (number, post) := cutAt (· = '_') owner
  "/wall".toList.isPrefixOf path && isPostNumber number && isPostNumber post

/-- `path.rstrip('/')`. -/
def withoutFinalSlashes (path : List Char) : List Char :=
  (path.reverse.dropWhile (· = '/')).reverse

/-- `_post_url`. -/
def postUrl (bot : Deployment) (value : String) (hosts : List String) (matchesPath : List Char → Bool)
    (error : String) : Except String String :=
  match splitHttps bot (pythonStrip value) with
  | none => .error error
  | some url =>
    let hostname := url.hostname bot
    if url.scheme ≠ "https".toList || hostname ∉ hosts || !url.portText.isEmpty ||
        url.netloc.contains '@' || !url.bare || !matchesPath url.path then .error error
    else .ok ("https://" ++ (afterPrefix "www." hostname).getD hostname ++
      String.ofList (withoutFinalSlashes url.path))

/-- Normalize a link to an individual Telegram channel post. -/
def normalizeTelegramPostUrl (bot : Deployment) (value : String) : Except String String :=
  postUrl bot value telegramProfileHosts isTelegramPostPath "Нужна HTTPS-ссылка на пост в Telegram"

/-- `text.replace(old, new)`; the first argument counts the characters of `old` that are still to be
passed over. -/
def replaceAll (old new : List Char) : Nat → List Char → List Char
  | _, [] => []
  | skip + 1, _ :: cs => replaceAll old new skip cs
  | 0, c :: cs =>
    if old.isPrefixOf (c :: cs) then new ++ replaceAll old new (old.length - 1) cs
    else c :: replaceAll old new 0 cs

def replaced (old new text : String) : String :=
  String.ofList (replaceAll old.toList new.toList 0 text.toList)

/-- Normalize a link to an individual VK wall post. -/
def normalizeVkPostUrl (bot : Deployment) (value : String) : Except String String := do
  let url ← postUrl bot value vkHosts isVkPostPath "Нужна HTTPS-ссылка на пост во VK"
  return replaced "https://m.vk.ru/" "https://vk.com/"
    (replaced "https://m.vk.com/" "https://vk.com/" (replaced "https://vk.ru/" "https://vk.com/" url))

/-! ## The contact of a VK user -/

/-- Parse an optional Telegram profile supplied through the VK questionnaire. -/
def normalizeVkTelegramContact (bot : Deployment) (value : String) : Option String :=
  match normalizeTelegramProfile bot value with
  | .ok handle => some handle
  | .error _ => match normalizeTelegramHandle bot (some value) with
    | .ok handle => handle
    | .error _ => none

/-! ## The whole profile -/

/-- The validators of `UserBase`. -/
def UserBase.isValid (base : UserBase) : Bool :=
  base.fullName.all (fun name => 2 ≤ name.length && name.length ≤ 300) &&
    base.nickname.all (fun nickname => normalizeNickname nickname = some nickname) &&
    base.passDetails.all PassDetails.isValid &&
    (base.needsPass != some false || base.passDetails.isNone)

/-- The validators of `TelegramUser` and `VkUser`: the stored contacts are normalized. -/
def User.isValid (bot : Deployment) (user : User) : Bool :=
  user.base.isValid && 0 < user.identity.platformUserId &&
    decide (normalizeTelegramHandle bot user.telegramHandle = .ok user.telegramHandle) &&
    match user with
    | .telegram profile =>
      profile.vkUrl.all (fun url => normalizeVkUrl bot url = .ok url) && profile.linkedVkId.all (0 < ·)
    | .vk _ => true

end LarpBot
