import LarpBot.Application.RegistrationMembers
import LarpBot.Laws.Notices
import LarpBot.Laws.Runs

/-!
# Telegram handles

A profile stores its handle as `@name` (`normalizeTelegramHandle`), a registration stores the link
`https://t.me/name` (`StoredFor.telegramProfile`). The two lookups between them compare the one with
the other: the registration of a chat member is looked up under the handle, and the account of a
cancelled player under the link. So neither ever finds what it looks for
(`handles_never_resolve`).
-/

namespace LarpBot

open Atomic Act
open Prog (Makes)

/-- The page of a handle, as registrations store it. -/
def telegramLink (handle : String) : String :=
  "https://t.me/" ++ (afterPrefix "@" handle).getD handle

/-- The rows that an ENLIST of a VK user and an UPDATE_PROFILE leave behind. The gateway puts the link
of the profile's handle into the ENLIST; without profile data the worker takes it from the user. -/
inductive StoredFor (user : User) (row : Registration) : Prop
  | enlist {t : Registrations} {now : Time} {e : EventId} {key : ParticipantKey}
    {command : OrderedRegistrationCommand} {event : Event} {payload : EnlistPayload} {vk : VkUser}
    (hvk : user = .vk vk) (hpayload : payload.telegramProfile = (profileLinks user).2 ∨
      payload.telegramProfile = none ∧ payload.vkProfile = "")
    (hstored : (t.enlist now e (enlistArguments command event key payload user)).1 = true)
    (hrow : Registrations.get (t.enlist now e (enlistArguments command event key payload user)).2 e
      key = some row)
  | updateProfile {t : Registrations} {now : Time} {e : EventId} {key : ParticipantKey}
    {op : OperationId} {a : Registrations.ProfileArguments}
    (ha : a.telegramProfile = (profileLinks user).2)
    (hstored : (t.updateProfile now e op key a).1 = true)
    (hrow : Registrations.get (t.updateProfile now e op key a).2 e key = some row)

/-- The identities that the bot takes for one person with a local user. -/
def Users.identitiesOf (users : Users) (platform : Platform) (userId : Nat) : List BotIdentity :=
  match users.get platform userId with
  | none => [⟨platform, userId⟩]
  | some user => (user :: (users.findLinked user).toList).map User.identity

/-! ## The two forms -/

theorem handle_of_normalize {bot : Deployment} {value : Option String} {handle : String}
    (h : normalizeTelegramHandle bot value = .ok (some handle)) : ∃ name, handle = "@" ++ name := by
  unfold normalizeTelegramHandle at h
  split at h
  · exact nomatch h
  · split at h
    · exact nomatch h
    · dsimp only at h
      split at h
      · exact ⟨_, (Option.some.inj (Except.ok.inj h)).symm⟩
      · exact nomatch h

/-- A link is no handle. -/
theorem telegramLink_ne (handle name : String) : telegramLink handle ≠ "@" ++ name := by
  intro h
  have hhead := congrArg (fun text => text.toList.head?) h
  simp [telegramLink, String.toList_append] at hhead

theorem profileLinks_telegram (user : User) :
    (profileLinks user).2 = user.telegramHandle.map telegramLink := by
  cases user <;> rfl

theorem telegramProfile_enlist {t : Registrations} {now : Time} {e : EventId}
    {a : Registrations.EnlistArguments} {row : Registration}
    (hstored : (t.enlist now e a).1 = true)
    (hrow : Registrations.get (t.enlist now e a).2 e a.participantKey = some row) :
    row.telegramProfile = a.telegramProfile := by
  unfold Registrations.enlist at hstored hrow
  cases hget : t.get e a.participantKey with
  | none =>
    have hnew : Table.find? t (a.newRow e now (t.enlistTime now e)).key = none := hget
    rw [hget] at hrow
    have hmem : row ∈ (Table.insertNew t (a.newRow e now (t.enlistTime now e))).rows :=
      Registrations.mem_of_get hrow
    rcases Table.mem_insertNew hmem with hold | ⟨rfl, -⟩
    · have hfound : Table.find? t (e, a.participantKey) = some row :=
        Table.find?_eq_some_iff.mpr ⟨hold, Registrations.key_of_get hrow⟩
      cases hnew.symm.trans hfound
    · rfl
  | some stored =>
    rw [hget] at hstored hrow
    dsimp only at hstored hrow
    split at hstored
    · cases hstored
    · next hop =>
      rw [if_neg hop] at hrow
      have hmodified := Registrations.get_modify (f := a.rewrite now
        (if isActive stored then now else t.enlistTime now e)) (fun _ => rfl) hget
      obtain rfl := Option.some.inj (hmodified.symm.trans hrow)
      rfl

theorem telegramProfile_updateProfile {t : Registrations} {now : Time} {e : EventId}
    {op : OperationId} {key : ParticipantKey} {a : Registrations.ProfileArguments}
    {row : Registration} (hstored : (t.updateProfile now e op key a).1 = true)
    (hrow : Registrations.get (t.updateProfile now e op key a).2 e key = some row) :
    row.telegramProfile = a.telegramProfile := by
  unfold Registrations.updateProfile Registrations.stampOne at hstored hrow
  cases hget : t.get e key with
  | none =>
    rw [hget] at hstored
    cases hstored
  | some stored =>
    rw [hget] at hstored hrow
    dsimp only at hstored hrow
    split at hstored
    · cases hstored
    · next hop =>
      rw [if_neg hop] at hrow
      have hmodified := Registrations.get_modify (f := fun row => { a.rewrite row with
        lastOperationId := op, updatedAt := now }) (fun _ => rfl) hget
      obtain rfl := Option.some.inj (hmodified.symm.trans hrow)
      rfl

/-- What the writers of a profile store is the link of its handle. -/
theorem StoredFor.telegramProfile {user : User} {row : Registration} (h : StoredFor user row) :
    row.telegramProfile = user.telegramHandle.map telegramLink := by
  rw [← profileLinks_telegram]
  cases h with
  | enlist hvk hpayload hstored hrow =>
    rw [telegramProfile_enlist hstored hrow]
    subst hvk
    rcases hpayload with hlink | ⟨hnone, hempty⟩
    · simp only [enlistArguments, hlink]
      split <;> rfl
    · simp only [enlistArguments, hnone, hempty, decide_true, Bool.or_true, Option.isNone_none,
        Bool.and_self, if_true]
  | updateProfile ha hstored hrow =>
    rw [telegramProfile_updateProfile hstored hrow, ha]

/-! ## The lookup of a member -/

section Lookup

variable {bot : Deployment} {admits : Input → Prop} {w : World}

theorem does_identitiesForLocalUser (platform : Platform) (userId : Nat) :
    does admits (fun identities w' => w' = w ∧ identities = w.users.identitiesOf platform userId)
      (fun _ _ => False) (identitiesForLocalUser platform userId) w := by
  unfold identitiesForLocalUser Users.identitiesOf
  refine does_getUser ?_
  cases w.users.get platform userId with
  | none => exact ⟨rfl, rfl⟩
  | some user => exact does_findLinked ⟨rfl, rfl⟩

theorem mem_of_effectiveRegistration {found : List Registration} {row : Registration}
    (h : effectiveRegistration found = some row) : row ∈ found := by
  unfold effectiveRegistration at h
  exact (List.mem_filter.mp (mem_sortBy.mp (List.mem_of_mem_head? h))).1

theorem reads_registeredEvent {legal : Legal} (eventId : EventId) :
    makes legal Call.IsRead (fun event => event.eventId = eventId ∧ legal.stored event)
      (registeredEvent eventId) := by
  refine makes_call trivial fun answer hanswer => ?_
  cases answer with
  | none => trivial
  | some event => exact hanswer event rfl

/-- A direct lookup finds a row of the person only. -/
theorem does_getRegistration (eventId : EventId) (platform : Platform) (userId : Nat) :
    does admits (fun found _ => ∀ row ∈ found, row.participantKey ∈
        (w.users.identitiesOf platform userId).map (bot.keyOf · eventId))
      (fun _ _ => True) (getRegistration bot eventId platform userId) w := by
  refine does_seq (does_reads (reads_registeredEvent eventId)) (fun _ _ _ => trivial)
    fun event w' h => ?_
  obtain ⟨rfl, rfl, -⟩ := h
  refine does_seq (does_identitiesForLocalUser platform userId) (fun _ _ h => h.elim)
    fun identities w' h => ?_
  obtain ⟨rfl, rfl⟩ := h
  refine does_seq (does_maintenance (maintenance_catalogRegistrationsOf bot trivial _))
    (fun _ _ _ => trivial) fun found w' h row hrow => ?_
  exact (h.2 row (mem_of_effectiveRegistration hrow)).2

/-- What is done for a member after the lookup does not change what was found. -/
theorem does_found {p : Act Unit} {found : Option Registration} {Q : Option Registration → Prop}
    (hQ : Q found) : does admits (fun found _ => Q found) (fun _ _ => True)
      (p >>= fun _ => pure found) w :=
  does_seq does_anything (fun _ _ h => h) fun _ _ _ => hQ

/-- A member is found under the person's own keys, or by a profile that is stored as a handle. -/
theorem does_getRegistrationForTelegramMember (eventId : EventId) (userId : Nat)
    (username : Option String) :
    does admits (fun found _ => ∀ row ∈ found,
        row.participantKey ∈ (w.users.identitiesOf .telegram userId).map (bot.keyOf · eventId) ∨
        ∃ name, row.telegramProfile = some ("@" ++ name))
      (fun _ _ => True) (getRegistrationForTelegramMember bot eventId userId username) w := by
  refine does_seq (does_getRegistration eventId .telegram userId) (fun _ _ h => h)
    fun direct w' hdirect => ?_
  cases hhandle : normalizeTelegramHandle bot username with
  | error fault => trivial
  | ok handle =>
    refine does_value (a := handle) rfl ?_
    cases direct with
    | some direct => exact does_found fun row hrow => .inl (hdirect row hrow)
    | none =>
      cases handle with
      | none => exact fun row hrow => nomatch hrow
      | some handle =>
        refine does_registrations fun _ => ?_
        refine does_found fun row hrow => .inr ?_
        have hmem := (List.mem_filter.mp (mem_of_effectiveRegistration hrow)).1
        have hprofile := (List.mem_filter.mp (mem_sortBy.mp hmem)).2
        obtain ⟨name, rfl⟩ := handle_of_normalize hhandle
        exact ⟨name, by simpa using hprofile⟩

/-! ## The account of a cancelled player -/

theorem of_findTelegramByHandle {users : Users} {handle : String} {user : TelegramUser}
    (h : users.findTelegramByHandle handle = some user) :
    .telegram user ∈ users.rows ∧ user.telegramHandle = some handle := by
  unfold Users.findTelegramByHandle at h
  split at h
  · next profile hmatches =>
    obtain rfl := Option.some.inj h
    have hmem : profile ∈ [profile] := List.mem_cons_self
    rw [← hmatches] at hmem
    obtain ⟨stored, hstored, hsome⟩ := List.mem_filterMap.mp hmem
    cases stored with
    | telegram stored =>
      dsimp only at hsome
      split at hsome
      · next hhandle =>
        obtain rfl := Option.some.inj hsome
        exact ⟨hstored, hhandle⟩
      · exact nomatch hsome
    | vk stored => exact nomatch hsome
  · exact nomatch h

/-- Two stored Telegram profiles of one number are one profile. -/
theorem telegram_unique {users : Users} {user other : TelegramUser}
    (huser : .telegram user ∈ users.rows) (hother : .telegram other ∈ users.rows)
    (hid : user.tgId = other.tgId) : user = other := by
  have hkey : (User.telegram user).identity = (User.telegram other).identity := by
    simp only [User.identity, hid]
  exact User.telegram.inj (Table.eq_of_key_eq huser hother hkey)

/-- Nobody among some VK profiles has a Telegram number. -/
theorem findSome?_vk {telegramId : User → Option Nat} {profiles : List User}
    (hvk : ∀ user, telegramId (.vk user) = none)
    (h : ∀ identity ∈ profiles.map User.identity, identity.platform ≠ .telegram) :
    profiles.findSome? telegramId = none := by
  refine List.findSome?_eq_none_iff.mpr fun user huser => ?_
  cases user with
  | telegram user => exact absurd rfl (h _ (List.mem_map_of_mem huser))
  | vk user => exact hvk user

variable {command : OrderedRegistrationCommand} {event : Event} {row : Registration}
  {account : TelegramUser} {handle : String}

/-- The account with the Telegram profile that a registration shows. -/
def accountOf : Option String → Act (Option Nat)
  | none => pure none
  | some profile => users (.findTelegramByHandle profile) >>= fun user =>
    pure (user.map TelegramUser.tgId)

/-- The account of a VK player without a linked profile is not the one with the stored handle. -/
theorem does_telegramAccount (hvk : command.platform = .vk)
    (hunlinked : ∀ identity ∈ w.users.identitiesOf .vk command.platformUserId,
      identity.platform ≠ .telegram)
    (hrow : w.registrations.get event.eventId row.participantKey = some row)
    (hprofile : row.telegramProfile = some (telegramLink handle))
    (haccount : .telegram account ∈ w.users.rows) (hhandle : account.telegramHandle = some handle)
    (hname : ∃ name, handle = "@" ++ name) :
    does admits (fun found w' => w' = w ∧ found ≠ some account.tgId) (fun _ _ => False)
      (telegramAccount bot command event (some row.participantKey)) w := by
  -- the last resort, when no profile of the person is a Telegram one
  have hlookup : does admits (fun found w' => w' = w ∧ found ≠ some account.tgId)
      (fun _ _ => False)
      (registrations (.get event.eventId row.participantKey) >>= fun registration =>
        accountOf (registration.bind Registration.telegramProfile)) w := by
    refine does_getRow ?_
    rw [hrow, Option.bind_some, hprofile, accountOf]
    refine does_users fun _ => ⟨rfl, fun hfound => ?_⟩
    obtain ⟨user, huser, hid⟩ := Option.map_eq_some_iff.mp hfound
    obtain ⟨hstored, hlink⟩ := of_findTelegramByHandle huser
    obtain rfl := telegram_unique hstored haccount hid
    obtain ⟨name, rfl⟩ := hname
    exact telegramLink_ne _ name (Option.some.inj (hlink.symm.trans hhandle))
  unfold Users.identitiesOf at hunlinked
  unfold telegramAccount
  rw [if_neg (by rw [hvk]; decide), hvk]
  refine does_getUser ?_
  cases hlocal : w.users.get .vk command.platformUserId with
  | none => exact hlookup
  | some user =>
    rw [hlocal] at hunlinked
    refine does_findLinked ?_
    dsimp only
    rw [findSome?_vk]
    · exact hlookup
    · exact fun _ => rfl
    · exact hunlinked

/-- A kick that the messenger carries out leaves its trace, any other one leaves none. -/
theorem does_kickMember {chatId : Int} {userId other : Nat} {requestId : String}
    (hother : userId ≠ other) :
    does admits (fun _ w' => ∀ entry ∈ w'.kicked, entry ∈ w.kicked ∨ entry.2.1 ≠ other)
      (fun _ w' => w'.kicked = w.kicked)
      (outside (.kickMember chatId userId requestId) >>= fun kicked =>
        present "kick_member" kicked) w := by
  refine does_call fun i _ => ?_
  show does admits _ _ (present "kick_member" (i (.kickMember chatId userId requestId)))
    (OutsideCall.record (.kickMember chatId userId requestId)
      (i (.kickMember chatId userId requestId)) w)
  cases i (.kickMember chatId userId requestId) with
  | none => exact rfl
  | some done =>
    cases done with
    | false => exact fun entry hentry => .inl hentry
    | true =>
      intro entry hentry
      rcases List.mem_append.mp hentry with hold | hnew
      · exact .inl hold
      · rw [List.mem_singleton.mp hnew]
        exact .inr hother

/-- No cancellation removes that account from the chat. -/
theorem does_kickCancelledParticipant (hvk : command.platform = .vk)
    (hunlinked : ∀ identity ∈ w.users.identitiesOf .vk command.platformUserId,
      identity.platform ≠ .telegram)
    (hevent : w.events.get row.eventId = some event)
    (hsnapshot : snapshotCancellation event = some (true, row.participantKey))
    (hrow : row ∈ w.registrations.rows)
    (hprofile : row.telegramProfile = some (telegramLink handle))
    (haccount : .telegram account ∈ w.users.rows) (hhandle : account.telegramHandle = some handle)
    (hname : ∃ name, handle = "@" ++ name) :
    does admits (fun _ w' => ∀ entry ∈ w'.kicked, entry ∈ w.kicked ∨ entry.2.1 ≠ account.tgId)
      (fun _ w' => w'.kicked = w.kicked)
      (kickCancelledParticipant bot command row.eventId none) w := by
  have hid : event.eventId = row.eventId := Events.eventId_of_get hevent
  unfold kickCancelledParticipant
  refine does_seq (R := fun stored w' => w' = w ∧ stored = event) (Y := fun _ _ => False) ?_
    (fun _ _ h => h.elim) fun stored w' h => ?_
  · refine does_getEvent ?_
    rw [hevent]
    exact ⟨rfl, rfl⟩
  · obtain ⟨rfl, rfl⟩ := h
    have hkept : ∀ entry ∈ w'.kicked, entry ∈ w'.kicked ∨ entry.2.1 ≠ account.tgId :=
      fun entry hentry => .inl hentry
    split
    · exact hkept
    · next chatId _ =>
      by_cases hop : stored.lastParticipantRemovalOperationId = some command.operationId
      · have hget : w'.registrations.get stored.eventId row.participantKey = some row :=
          Table.find?_eq_some_iff.mpr ⟨hrow, by rw [hid]; rfl⟩
        simp only [hop, hsnapshot, Option.isSome_none, ne_eq, not_true_eq_false, decide_false,
          Bool.or_false, Bool.false_eq_true, if_false, Option.any_some, Option.getD_none, if_true,
          Option.map_some]
        refine does_seq (does_telegramAccount hvk hunlinked hget hprofile haccount hhandle hname)
          (fun _ _ h => h.elim) fun found w₁ h => ?_
        obtain ⟨rfl, hfound⟩ := h
        cases found with
        | none => exact hkept
        | some userId => exact does_kickMember fun h => hfound (congrArg some h)
      · simp only [hop, Option.isSome_none, ne_eq, not_false_eq_true, decide_true, Bool.or_true,
          if_true, Option.any_none, Option.getD_none, Bool.false_eq_true, if_false]
        exact hkept

end Lookup

/-- Whatever else is stored: no member without a linked profile is found by the handle that the
registration was stored for, and no cancellation of a VK player without a linked profile removes the
account with that handle from the chat. -/
theorem handles_never_resolve {bot : Deployment} {user : User} {stored row : Registration}
    {handle : String} {w : World} {s : Nat → Input} (hstored : StoredFor user stored)
    (hhandle : user.telegramHandle = some handle)
    (hvalid : ∃ value, normalizeTelegramHandle bot value = .ok (some handle))
    (hrow : row ∈ w.registrations.rows) (hsame : row.telegramProfile = stored.telegramProfile) :
    (∀ userId username, normalizeTelegramHandle bot username = .ok (some handle) →
      row.participantKey ∉ (w.users.identitiesOf .telegram userId).map (bot.keyOf · row.eventId) →
      ((getRegistrationForTelegramMember bot row.eventId userId username).run storage s w).1 ≠
        .ok (some row)) ∧
    (∀ command event account, command.platform = .vk →
      (∀ identity ∈ w.users.identitiesOf .vk command.platformUserId,
        identity.platform ≠ .telegram) →
      w.events.get row.eventId = some event →
      snapshotCancellation event = some (true, row.participantKey) →
      .telegram account ∈ w.users.rows → account.telegramHandle = some handle →
      ∀ entry ∈ ((kickCancelledParticipant bot command row.eventId none).run storage s w).2.2.kicked,
        entry ∈ w.kicked ∨ entry.2.1 ≠ account.tgId) := by
  have hprofile : row.telegramProfile = some (telegramLink handle) := by
    rw [hsame, hstored.telegramProfile, hhandle, Option.map_some]
  obtain ⟨value, hvalue⟩ := hvalid
  have hname := handle_of_normalize hvalue
  constructor
  · intro userId username _ hunlinked hfound
    have hlookup : does (fun _ => True) _ _
        (getRegistrationForTelegramMember bot row.eventId userId username) w :=
      does_getRegistrationForTelegramMember row.eventId userId username
    rcases (run_of_does hlookup fun _ => trivial).1 _ hfound row rfl with hkey | ⟨name, hhandled⟩
    · exact hunlinked hkey
    · exact telegramLink_ne handle name (Option.some.inj (hprofile.symm.trans hhandled))
  · intro command event account hvk hunlinked hevent hsnapshot haccount hown
    have hkick : does (fun _ => True)
        (fun _ w' => ∀ entry ∈ w'.kicked, entry ∈ w.kicked ∨ entry.2.1 ≠ account.tgId)
        (fun _ w' => ∀ entry ∈ w'.kicked, entry ∈ w.kicked ∨ entry.2.1 ≠ account.tgId)
        (kickCancelledParticipant bot command row.eventId none) w :=
      does_mono (does_kickCancelledParticipant hvk hunlinked hevent hsnapshot hrow hprofile haccount
        hown hname) (fun _ _ h => h) fun _ w' h entry hentry => .inl (h ▸ hentry)
    exact end_of_does hkick fun _ => trivial

/-! ## A player with a handle -/

/-- A VK player who gave a Telegram handle. -/
def handlePlayer : User :=
  .vk {
    vkId := 5
    telegramHandle := some "@player_one"
    fullName := some "Иванов Иван"
    larpExperience := some true
    crossplay := some true
    needsPass := some false }

/-- The Telegram account with that handle; the two profiles are not linked. -/
def handleAccount : TelegramUser :=
  { tgId := 7, telegramHandle := some "@player_one" }

def handlePayload : EnlistPayload where
  displayName := "Иванов Иван"
  wishPlay := ""
  larpExperience := some true
  crossplay := some true
  vkProfile := "https://vk.com/id5"
  telegramProfile := some "https://t.me/player_one"

def handleKey : ParticipantKey :=
  sampleBot.keyOf ⟨.vk, 5⟩ "game"

/-- The cancellation of the VK player. -/
def handleCancellation : OrderedRegistrationCommand where
  operationId := "cancel-5"
  eventId := "game"
  operation := .cancel
  platform := .vk
  platformUserId := 5
  participantKey := some handleKey
  participant_named := fun _ => by simp [handleKey, sampleBot, Deployment.keyOf, Platform.value]

/-- The game after the snapshot of that cancellation. -/
def handleEvent : Event where
  eventId := "game"
  name := "Игра"
  telegramChatId := some (-100)
  lastParticipantRemovalOperationId := some "cancel-5"
  participantRemovalKeys := [cancelledConfirmedPrefix ++ handleKey]

def handleRegistrations : Registrations :=
  (Registrations.enlist Table.empty 0 "game"
    (enlistArguments handleCancellation handleEvent handleKey handlePayload handlePlayer)).2

def handleWorld : World where
  users := ⟨[handlePlayer, .telegram handleAccount], by decide⟩
  events := ⟨[handleEvent], by decide⟩
  registrations := handleRegistrations

def handleRow : Registration :=
  (enlistArguments handleCancellation handleEvent handleKey handlePayload handlePlayer).newRow "game"
    0 0

/-- Neither the lookup nor the kick reaches the player of this world. -/
theorem handlePlayer_never_resolves :
    ((getRegistrationForTelegramMember sampleBot handleRow.eventId 7 (some "Player_One")).run storage
      (fun _ => goodDay 0) handleWorld).1 ≠ .ok (some handleRow) ∧
    ∀ entry ∈ ((kickCancelledParticipant sampleBot handleCancellation handleRow.eventId none).run
      storage (fun _ => goodDay 0) handleWorld).2.2.kicked,
        entry ∈ handleWorld.kicked ∨ entry.2.1 ≠ handleAccount.tgId := by
  have hwritten : (Registrations.enlist Table.empty 0 "game"
      (enlistArguments handleCancellation handleEvent handleKey handlePayload handlePlayer)).1 =
      true := rfl
  have hrow : handleRegistrations.get "game" handleKey = some handleRow := by decide +kernel
  have hstored : StoredFor handlePlayer handleRow :=
    .enlist rfl (.inl (by decide +kernel)) hwritten hrow
  have hvalid : normalizeTelegramHandle sampleBot (some "Player_One") = .ok (some "@player_one") := by
    decide +kernel
  obtain ⟨hlookup, hkick⟩ := handles_never_resolve (w := handleWorld) (s := fun _ => goodDay 0)
    hstored rfl ⟨_, hvalid⟩ (by decide +kernel) rfl
  refine ⟨hlookup 7 _ hvalid (by decide +kernel), ?_⟩
  exact hkick handleCancellation handleEvent handleAccount rfl (by decide +kernel) rfl
    (by decide +kernel) (List.mem_cons_of_mem _ List.mem_cons_self) rfl

/-- The member shows the very name that is stored, and is not found; the player cancels, and stays
in the chat. -/
theorem handle_unresolved :
    normalizeTelegramHandle sampleBot (some "Player_One") = .ok (some "@player_one") ∧
    handleRegistrations.rows.map Registration.telegramProfile =
      [some "https://t.me/player_one"] ∧
    ((getRegistrationForTelegramMember sampleBot "game" 7 (some "Player_One")).run storage
      (fun _ => goodDay 0) handleWorld).1 = .ok none ∧
    ((kickCancelledParticipant sampleBot handleCancellation "game" none).run storage
      (fun _ => goodDay 0) handleWorld).1 = .ok false := by
  refine ⟨by decide +kernel, by decide +kernel, ?_, ?_⟩
  · decide +kernel
  · decide +kernel

end LarpBot
