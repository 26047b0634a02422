import LarpBot.Application.RegistrationServices

/-!
# The pages of the game menus

What `RegistrationQueryService` shows of the event store: `_event_page` behind the lists of games, and
`game_menu_availability`. Both walk over storage pages of at most ten events. The loops have no bound in
the source; here they have a budget of storage pages, and beyond it the deadline of the function.
-/

namespace LarpBot

open Atomic

/-! ## Pages of events -/

structure EventPage where
  events : List Event
  hasPrevious : Bool
  hasNext : Bool
deriving DecidableEq

section Pages

variable (events : Events) (now : Time) (keep : Event → Bool)
  (statuses : Option (List EventStatus)) (archived : Option Bool) (eventLimit : Nat)

/-- `scan` in `_event_page`: the kept events at a cursor, found in storage pages. -/
def scanEvents (matchLimit : Nat) : Nat → Option (Time ×ₗ EventId) → Option (Time ×ₗ EventId) →
    List Event → Except Fault (List Event)
  | 0, _, _, _ => .error .deadline
  | budget + 1, afterCursor, beforeCursor, found => do
    let scanLimit := min eventLimit 10
    let candidates ← events.listPageBy now
      { statuses := statuses, archived := archived, after := afterCursor, before := beforeCursor,
        limit := scanLimit }
    match candidates.head?, candidates.getLast? with
    | some first, some last =>
      let inspected := candidates.filter keep
      match beforeCursor with
      | some _ =>
        let found := inspected ++ found
        if matchLimit ≤ found.length then return found.rtake matchLimit
        if candidates.length < scanLimit then return found
        scanEvents matchLimit budget afterCursor (some (Events.pageKey first)) found
      | none =>
        let found := found ++ inspected
        if matchLimit ≤ found.length then return found.take matchLimit
        if candidates.length < scanLimit then return found
        scanEvents matchLimit budget (some (Events.pageKey last)) none found
    | _, _ => return found

/-- `_event_page`. -/
def eventPage (budget : Nat) (after before : Option (Time ×ₗ EventId)) (concurrency : Nat) :
    Except Fault EventPage := do
  if eventLimit < 1 then .error (.valueError "event page size must be positive")
  if concurrency < 1 then .error (.valueError "concurrency must be positive")
  let scan := scanEvents events now keep statuses archived eventLimit
  let found ← scan eventLimit budget after before []
  match found.head?, found.getLast? with
  | some first, some last =>
    let previous ← scan 1 budget none (some (Events.pageKey first)) []
    let following ← scan 1 budget (some (Events.pageKey last)) none []
    return ⟨found, !previous.isEmpty, !following.isEmpty⟩
  | _, _ => return ⟨[], false, false⟩

end Pages

/-! ## The game menu -/

structure PlayerGameMenuAvailability where
  hasRegistrations : Bool
  hasAvailableGames : Bool
deriving DecidableEq

section Menu

variable (events : Events) (registrations : Registrations)
  (keyOf : BotIdentity → EventId → ParticipantKey) (identities : List BotIdentity) (now : Time)

/-- `open_for_signup`. -/
def openForSignup (event : Event) : Bool :=
  event.status ∈ [EventStatus.created, .confirmationOpen] && event.registrationIsOpen now

/-- `registration_for`. -/
def registrationFor (event : Event) : Option Registration :=
  effectiveRegistration (identities.filterMap fun identity =>
    registrations.find? (event.eventId, keyOf identity event.eventId))

/-- What the menu learns from one event. -/
def noteEvent (flags : PlayerGameMenuAvailability) (event : Event) : PlayerGameMenuAvailability :=
  if (registrationFor registrations keyOf identities event).any isActive then
    { flags with hasRegistrations := true }
  else if openForSignup now event then { flags with hasAvailableGames := true }
  else flags

/-- The loop of `game_menu_availability`. -/
def scanMenu : Nat → Option (Time ×ₗ EventId) → PlayerGameMenuAvailability →
    Except Fault PlayerGameMenuAvailability
  | 0, _, _ => .error .deadline
  | budget + 1, after, flags => do
    let page ← events.listPageBy now
      { archived := some false, after := after, limit := maxEventPageSize }
    let candidates := page.filter fun event =>
      !flags.hasRegistrations || (!flags.hasAvailableGames && openForSignup now event)
    let flags := candidates.foldl (noteEvent registrations keyOf identities now) flags
    match page.getLast? with
    | none => return flags
    | some last =>
      if flags.hasRegistrations && flags.hasAvailableGames || page.length < maxEventPageSize then
        return flags
      scanMenu budget (some (Events.pageKey last)) flags

/-- `game_menu_availability`. -/
def gameMenuAvailability (budget : Nat) : Except Fault PlayerGameMenuAvailability :=
  scanMenu events registrations keyOf identities now budget none ⟨false, false⟩

end Menu

end LarpBot
