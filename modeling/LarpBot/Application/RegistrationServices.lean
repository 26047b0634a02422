import LarpBot.Application.NotificationHelpers

/-!
# The registration catalog

`application/identity.py`, the `RegistrationCatalog` of `registration_services.py` and the scans
over events and identities that the worker makes. The catalog is the source of truth plus its
derived tables: a refresh reads the roster and hands it to the table storage, and an event that was
never migrated is imported from its legacy workbook first.

A scan over all events reads page after page. It has no bound of its own in the source, only the
worker's deadline, which cuts the attempt off; `Deployment.pageBudget` is how many pages a scan may
read before that.
-/

namespace LarpBot

open Atomic Act

/-- The exception that cuts an attempt off at the worker's deadline. -/
def Fault.deadline : Fault := .integration "deadline"

/-! ## Identities -/

/-- Return the mutually linked local profiles belonging to one person. -/
def globalUsers (user : User) : Act (List User) := do
  let linked ← users (.findLinked user)
  return user :: linked.toList

def globalIdentities (user : User) : Act (List BotIdentity) := do
  let profiles ← globalUsers user
  return profiles.map User.identity

def identitiesForLocalUser (platform : Platform) (userId : Nat) : Act (List BotIdentity) := do
  match ← users (.get platform userId) with
  | none => return [⟨platform, userId⟩]
  | some user => globalIdentities user

/-! ## The catalog -/

variable (bot : Deployment)

/-- `dict.update` on an association list: the first pair of a key is the one that counts. -/
def assign {κ ν : Type} [DecidableEq κ] (entries : List (κ × ν)) (k : κ) (v : ν) : List (κ × ν) :=
  (k, v) :: entries.filter fun entry => entry.1 ≠ k

/-- Whether the latest of two linked profiles is the second one. -/
def preferSecond (first second : UserPassPreference) : Bool :=
  toLex (first.updatedAt, toLex (first.platform.value, first.userId)) <
    toLex (second.updatedAt, toLex (second.platform.value, second.userId))

/-- Resolve reciprocal links in memory, using the latest global profile's answer. -/
def eventPassPreferences (profiles : List UserPassPreference) (eventId : EventId)
    (activeKeys : List ParticipantKey) : List (ParticipantKey × Option Bool) :=
  let owners (vkId : Nat) (handle : String) := profiles.filter fun profile =>
    profile.platform = .telegram && profile.linkedVkId = some vkId &&
      profile.telegramHandle = some handle
  let vkProfile (vkId : Nat) := (profiles.filter fun profile =>
    profile.platform = .vk && profile.userId = vkId).getLast?
  let pair (vkId : Option Nat) (handle : Option String) :
      Option (UserPassPreference × UserPassPreference) :=
    match vkId, handle with
    | some vkId, some handle =>
      match if handle = "" then [] else owners vkId handle, vkProfile vkId with
      | [telegram], some vk =>
        if vk.telegramHandle = some handle then some (telegram, vk) else none
      | _, _ => none
    | _, _ => none
  let current (profile : UserPassPreference) : UserPassPreference :=
    let linked := match profile.platform with
      | .telegram => pair profile.linkedVkId profile.telegramHandle
      | _ => pair (some profile.userId) profile.telegramHandle
    match linked with
    | some (telegram, vk) => if preferSecond telegram vk then vk else telegram
    | none => profile
  profiles.foldl (fun answers profile =>
    let key := bot.participantKey profile.platform profile.userId eventId
    if key ∈ activeKeys then assign answers key (current profile).needsPass else answers) []

/-- Replace each run of characters that pass a test by one text: `re.sub` with a class and `+`. -/
def replaceRuns (p : Char → Bool) (replacement : List Char) (inRun : Bool) :
    List Char → List Char
  | [] => []
  | c :: cs =>
    if p c then (if inRun then [] else replacement) ++ replaceRuns p replacement true cs
    else c :: replaceRuns p replacement false cs

/-- `str.strip(chars)` and `str.rstrip(chars)` on a list of characters. -/
def stripChars (chars cs : List Char) : List Char :=
  ((cs.dropWhile (· ∈ chars)).reverse.dropWhile (· ∈ chars)).reverse

def rstripChars (chars cs : List Char) : List Char :=
  (cs.reverse.dropWhile (· ∈ chars)).reverse

def eventSlug (name : String) : List Char :=
  let folded := (bot.casefold name).toList.map fun c => if c = 'ё' then 'е' else c
  let other (c : Char) : Bool := !(('a' ≤ c && c ≤ 'z') || ('0' ≤ c && c ≤ '9'))
  let slug := stripChars ['-'] (replaceRuns other ['-'] false folded)
  (if slug.isEmpty then "game".toList else slug).take 40

/-- The name of a game as part of a file name. -/
def safeTableName (name : String) : String :=
  let forbidden (c : Char) : Bool :=
    c ∈ ['\\', '/', ':', '*', '?', '"', '<', '>', '|'] || c.toNat < 0x20
  let dashed := replaceRuns forbidden ['-'] false (pythonStrip name)
  let spaced := replaceRuns isPythonSpace [' '] false dashed
  let safe := rstripChars [' ', '.'] ((stripChars [' ', '.'] spaced).take 120)
  String.ofList (if safe.isEmpty then eventSlug bot name else safe)

/-- The master path of `event_table_paths`. -/
def masterTablePath (eventId : EventId) (name : String) : String :=
  s!"disk:/larp-bot/events/{eventId}/master_table_{safeTableName bot name}.xlsx"

/-- The public path of `event_table_paths`. -/
def publicTablePath (eventId : EventId) (name : String) : String :=
  s!"disk:/larp-bot/events/{eventId}/public_table_{safeTableName bot name}.xlsx"

/-- Attach the contact-free workbook to an event created before the dual-table rollout. -/
def ensurePublicTable (event : Event) (rows : List Registration) : Act Event := do
  if event.publicTableResourcePath.isSome then
    return event
  let diskPath := publicTablePath bot event.eventId event.name
  let created ← outside (.createPublicEventWorkbook diskPath rows event.playerAmount
    event.registrationQuestion)
  match ← present "create_public_event_workbook" created with
  | none => return event
  | some publicUrl =>
    let googleUrl := if bot.mirrorsGoogleTables then some publicUrl else none
    if ← events (.setPublicTable event.eventId diskPath publicUrl googleUrl) then
      return event.withPublicTable diskPath publicUrl googleUrl
    else
      let current ← events (.get event.eventId)
      match current.filter fun e => e.publicTableResourcePath.isSome with
      | some current =>
        whenever (current.publicTableResourcePath ≠ some diskPath) do
          present "delete_event_workbook" (← outside (.deleteEventWorkbook diskPath))
        return current
      | none =>
        present "delete_event_workbook" (← outside (.deleteEventWorkbook diskPath))
        eventNotFound "Игра была удалена во время создания публичной таблицы"

/-- Refresh the public workbook and return the roster already read for it. -/
def refreshWithRows (event : Event) : Act (Event × List Registration) := do
  let rows ← registrations (.listForEvent event.eventId)
  let event ← ensurePublicTable bot event rows
  let activeKeys := (rows.filter isActive).map Registration.participantKey
  let answers ← (if activeKeys.isEmpty then pure [] else do
    let profiles ← users .listPassPreferences
    pure (eventPassPreferences bot profiles event.eventId activeKeys))
  let urls ← present "replace" (← outside (.replace event rows answers))
  match urls.filter fun urls => urls.googleMaster.isSome || urls.googlePublic.isSome with
  | none => return (event, rows)
  | some urls =>
    let _ ← events (.setGoogleTableLinks event.eventId urls.googleMaster urls.googlePublic)
    let stored ← events (.get event.eventId)
    return (stored.getD event, rows)

def refresh (event : Event) : Act Event := do
  let (event, _) ← refreshWithRows bot event
  return event

def ensureMigrated (event : Event) : Act Event := do
  if event.registrationsMigratedAt.isSome then
    return event
  whenever bot.legacyRegistrationImports do
    let legacy ← present "read_legacy_registrations"
      (← outside (.readLegacyRegistrations event))
    registrations (.importMissing (legacy.map (LegacyRow.toRegistration event.eventId)))
  let event ← refresh bot event
  let migratedAt ← outside .now
  value (← events (.markRegistrationsMigrated event.eventId migratedAt))
  return { event with registrationsMigratedAt := some migratedAt }

def catalogGet (event : Event) (participantKey : ParticipantKey) : Act (Option Registration) := do
  let _ ← ensureMigrated bot event
  registrations (.get event.eventId participantKey)

def catalogArchive (event : Event) : Act Unit := do
  let archivedAt ← outside .now
  let _ ← events (.archive event.eventId archivedAt)

def catalogDelete (event : Event) : Act Unit := do
  let paths := (event.diskResourcePath :: event.publicTableResourcePath.toList).eraseDups
  Prog.forEach (fun path => do
    present "delete_event_workbook" (← outside (.deleteEventWorkbook path))) paths
  present "delete_pass_table" (← outside (.deletePassTable
    (event.passTableResourcePath.getD s!"disk:/larp-bot/passes/{event.eventId}.xlsx")))
  present "delete_achievement_presentation" (← outside (.deleteAchievementPresentation
    (event.achievementResourcePath.getD s!"disk:/larp-bot/achievements/{event.eventId}.pptx")))
  registrations (.deleteForEvent event.eventId)
  let _ ← events (.delete event.eventId)

/-! ## Scans -/

/-- Choose one view without deleting duplicate records from linked profiles. -/
def effectiveRegistration (registrations : List Registration) : Option Registration :=
  let statusRank (registration : Registration) : Nat :=
    match registration.attendanceStatus with
    | .cancelled => 0
    | .waiting => 1
    | .confirmed => 2
  let highest := ((registrations.map statusRank).max?).getD 0
  (sortBy Registrations.listKey (registrations.filter (statusRank · = highest))).head?

/-- The registrations of some identities in one event, in the order of the identities. -/
def registrationsOf (event : Event) (identities : List BotIdentity) : Act (List Registration) := do
  let found ← Prog.traverse (fun identity =>
    registrations (.get event.eventId (bot.keyOf identity event.eventId))) identities
  return found.filterMap id

/-- `registrationsOf` through the catalog, which migrates the event first. -/
def catalogRegistrationsOf (event : Event) (identities : List BotIdentity) :
    Act (List Registration) := do
  let found ← Prog.traverse (fun identity =>
    catalogGet bot event (bot.keyOf identity event.eventId)) identities
  return found.filterMap id

/-- The walk over all unarchived events, a page at a time; `visit` sees each page. -/
def scanPages {α : Type} (visit : List Event → Act (List α)) :
    Nat → Option (Time × EventId) → Act (List α)
  | 0, _ => raise .deadline
  | budget + 1, after => do
    let page ← value (← events (.listPage after false maxEventPageSize))
    let seen ← visit page
    match page.getLast? with
    | none => return seen
    | some last =>
      if page.length < maxEventPageSize then return seen
      let rest ← scanPages visit budget (some (last.createdAt, last.eventId))
      return seen ++ rest

/-- The events of a page that a same-day scan looks into. -/
def isSameDayRival (gameDate : GameDate) (excludeEventId : Option EventId)
    (conflictsWith : Option Event) (event : Event) : Bool :=
  event.gameDate = some gameDate && some event.eventId ≠ excludeEventId &&
    conflictsWith.all fun other => confirmationTimesConflict other event

/-- Find a player's active registrations on one game date. -/
def playerRegistrationsOnDate (identities : List BotIdentity) (gameDate : GameDate)
    (statuses : List AttendanceStatus) (excludeEventId : Option EventId)
    (conflictsWith : Option Event) : Act (List (Event × Registration)) :=
  scanPages (fun page => do
    let dated := page.filter (isSameDayRival gameDate excludeEventId conflictsWith)
    let groups ← Prog.traverse (fun event => do
      let group ← catalogRegistrationsOf bot event identities
      return (event, group)) dated
    return groups.filterMap fun (event, group) =>
      ((effectiveRegistration group).filter (·.attendanceStatus ∈ statuses)).map (event, ·))
    bot.pageBudget none

def unarchivedEvents : Act (List Event) :=
  scanPages (fun page => return page) bot.pageBudget none

/-! ## Pass tables -/

def eventPassProfiles (event : Event) (registrationRows : Option (List Registration)) :
    Act (List PassDetails) := do
  let rows ← (match registrationRows with
    | some rows => pure rows
    | none => registrations (.listForEvent event.eventId) : Act (List Registration))
  let profiles ← users .listAll
  let leaders ← listLeaders event.eventId
  let activeKeys := (rows.filter isActive).map Registration.participantKey
  return profiles.filterMap fun user =>
    if user.base.needsPass = some true &&
        (bot.keyOf user.identity event.eventId ∈ activeKeys || user.identity ∈ leaders) then
      user.base.passDetails
    else none

/-- The later profile of a pair, by the last update and then the identity. -/
def currentProfile (first second : User) : User :=
  let order (user : User) := toLex (user.base.updatedAt,
    toLex (user.identity.platform.value, user.identity.platformUserId))
  if order first < order second then second else first

/-- The profiles of a day, each global person at most once: `seen` are the identities done. -/
def dailyProfiles (belongs : BotIdentity → Bool) (seen : List BotIdentity) :
    List (User × Option User) → List PassDetails
  | [] => []
  | (user, linked) :: rest =>
    let group := (user :: linked.toList).map User.identity
    if group.any (· ∈ seen) then dailyProfiles belongs seen rest
    else
      let current := match linked with
        | none => user
        | some other => currentProfile user other
      let details := if group.any belongs && current.base.needsPass = some true then
          current.base.passDetails
        else none
      details.toList ++ dailyProfiles belongs (group ++ seen) rest

def dailyPassProfiles (gameDate : GameDate) : Act (List Event × List PassDetails) := do
  let unarchived ← unarchivedEvents bot
  let dated := unarchived.filter (·.gameDate = some gameDate)
  if dated.isEmpty then
    return ([], [])
  let dayEvents ← Prog.traverse (ensureMigrated bot) dated
  let rows ← Prog.traverse (fun event => registrations (.listForEvent event.eventId)) dayEvents
  let leaders ← Prog.traverse (fun event => listLeaders event.eventId) dayEvents
  let profiles ← users .listAll
  let linked ← Prog.traverse (fun user => users (.findLinked user)) profiles
  let belongs (identity : BotIdentity) : Bool :=
    (dayEvents.zip (rows.zip leaders)).any fun (event, rows, leaders) =>
      identity ∈ leaders || rows.any fun row =>
        isActive row && row.participantKey = bot.keyOf identity event.eventId
  return (dayEvents, dailyProfiles belongs [] (profiles.zip linked))

end LarpBot
