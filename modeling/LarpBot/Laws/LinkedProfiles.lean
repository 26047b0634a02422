import LarpBot.Laws.TelegramHandles

/-!
# Linked profiles

A person may have a Telegram and a VK profile. `findLinked` looks from either side for the other
one, and the two sides are written differently: the Telegram side counts the owners of a VK account
and then fetches the VK profile, the VK side counts the owners and takes the one there is.
`event_pass_preferences` builds the pairs once more, from the projection of all profiles.

`Pair` is what both sides ask for, and the law (`resolvers_agree`) is that every resolver reads it:
the link is its own inverse and joins two platforms, the bulk grouping finds the same partner and
the same latest profile for each user, and the daily list takes each person once.

**What it does not establish.** The rows are those of one reading of the table. A profile that is
read before another one changes may be paired with a profile that no longer answers to it.
-/

namespace LarpBot

open Atomic Act

/-- The row of a user in the projection of all profiles. -/
def User.passPreference (user : User) : UserPassPreference where
  platform := user.identity.platform
  userId := user.identity.platformUserId
  needsPass := user.base.needsPass
  telegramHandle := user.telegramHandle
  linkedVkId := match user with
    | .telegram profile => profile.linkedVkId
    | .vk _ => none
  updatedAt := user.base.updatedAt

/-! ## The grouping of the projection -/

section Projection

variable (profiles : List UserPassPreference)

/-- The candidates that `event_pass_preferences` collects under a VK account and a handle. -/
def passOwners (vkId : Nat) (handle : String) : List UserPassPreference :=
  profiles.filter fun profile =>
    profile.platform = .telegram && profile.linkedVkId = some vkId &&
      profile.telegramHandle = some handle

def passVkProfile (vkId : Nat) : Option UserPassPreference :=
  (profiles.filter fun profile => profile.platform = .vk && profile.userId = vkId).getLast?

/-- The two rows of one person, the Telegram one first. -/
def passPair (vkId : Option Nat) (handle : Option String) :
    Option (UserPassPreference × UserPassPreference) :=
  match vkId, handle with
  | some vkId, some handle =>
    match if handle = "" then [] else passOwners profiles vkId handle,
      passVkProfile profiles vkId with
    | [telegram], some vk =>
      if vk.telegramHandle = some handle then some (telegram, vk) else none
    | _, _ => none
  | _, _ => none

/-- The pair that a row belongs to. -/
def passPairOf (profile : UserPassPreference) : Option (UserPassPreference × UserPassPreference) :=
  match profile.platform with
  | .telegram => passPair profiles profile.linkedVkId profile.telegramHandle
  | _ => passPair profiles (some profile.userId) profile.telegramHandle

/-- The other row of the pair. -/
def passPartner (profile : UserPassPreference) : Option UserPassPreference :=
  (passPairOf profiles profile).map fun pair =>
    if profile.platform = .telegram then pair.2 else pair.1

/-- The row whose answer counts for a user. -/
def passCurrent (profile : UserPassPreference) : UserPassPreference :=
  match passPairOf profiles profile with
  | some (telegram, vk) => if preferSecond telegram vk then vk else telegram
  | none => profile

theorem eventPassPreferences_eq (bot : Deployment) (eventId : EventId)
    (activeKeys : List ParticipantKey) :
    eventPassPreferences bot profiles eventId activeKeys = profiles.foldl (fun answers profile =>
      let key := bot.participantKey profile.platform profile.userId eventId
      if key ∈ activeKeys then assign answers key (passCurrent profiles profile).needsPass
      else answers) [] :=
  rfl

end Projection

/-! ## Pairs -/

namespace Users

variable {users : Users} {telegram : TelegramUser} {vk : VkUser} {user linked : User}

/-- A Telegram and a VK profile of one person: they share a handle, the Telegram profile claims the
VK account, and no other one claims it under that handle. -/
structure Pair (users : Users) (telegram : TelegramUser) (vk : VkUser) : Prop where
  stored : User.telegram telegram ∈ users.rows
  storedVk : User.vk vk ∈ users.rows
  claims : telegram.linkedVkId = some vk.vkId
  shared : ∃ handle, telegram.telegramHandle = some handle ∧ vk.telegramHandle = some handle ∧
    users.owners vk.vkId handle = [telegram]

theorem mem_owners {vkId : Nat} {handle : String} :
    telegram ∈ users.owners vkId handle ↔ User.telegram telegram ∈ users.rows ∧
      telegram.linkedVkId = some vkId ∧ telegram.telegramHandle = some handle := by
  unfold owners
  rw [List.mem_filterMap]
  constructor
  · rintro ⟨user, hmem, howner⟩
    cases user with
    | vk profile => exact nomatch howner
    | telegram profile =>
      dsimp only at howner
      split at howner
      · next h =>
        obtain rfl := Option.some.inj howner
        exact ⟨hmem, h⟩
      · exact nomatch howner
  · rintro ⟨hmem, h⟩
    exact ⟨.telegram telegram, hmem, if_pos h⟩

theorem eq_of_tgId {other : TelegramUser} (h : User.telegram telegram ∈ users.rows)
    (hother : User.telegram other ∈ users.rows) (hid : telegram.tgId = other.tgId) :
    telegram = other := by
  have heq : User.telegram telegram = User.telegram other :=
    Table.eq_of_key_eq h hother (by simp only [User.identity, hid])
  exact User.telegram.inj heq

theorem get_vk {vkId : Nat} (h : users.get .vk vkId = some user) :
    ∃ profile, user = .vk profile ∧ profile.vkId = vkId ∧ user ∈ users.rows := by
  have hkey := Table.key_of_find? h
  cases user with
  | telegram profile => exact nomatch congrArg BotIdentity.platform hkey
  | vk profile => exact ⟨profile, rfl, congrArg BotIdentity.platformUserId hkey, Table.mem_of_find? h⟩

/-- The Telegram side of the link. -/
theorem findLinked_telegram (h : User.telegram telegram ∈ users.rows) :
    users.findLinked (.telegram telegram) = some linked ↔
      ∃ vk, linked = .vk vk ∧ users.Pair telegram vk := by
  constructor
  · intro hlinked
    simp only [findLinked] at hlinked
    split at hlinked
    · next vkId handle hvkId hhandle =>
      split at hlinked
      · next owner howners =>
        split at hlinked
        · next hid =>
          obtain ⟨hget, hshared⟩ := Option.filter_eq_some_iff.mp hlinked
          obtain ⟨vk, rfl, rfl, hvk⟩ := get_vk hget
          have hmem := mem_owners.mp (howners ▸ List.mem_singleton_self owner)
          obtain rfl := eq_of_tgId hmem.1 h hid
          exact ⟨vk, rfl, h, hvk, hvkId, handle, hhandle, of_decide_eq_true hshared, howners⟩
        · exact nomatch hlinked
      · exact nomatch hlinked
    · exact nomatch hlinked
  · rintro ⟨vk, rfl, hpair⟩
    obtain ⟨handle, hhandle, hshared, howners⟩ := hpair.shared
    have hget : users.get .vk vk.vkId = some (.vk vk) := Table.find?_key hpair.storedVk
    simp only [findLinked, hpair.claims, hhandle, howners, hget, if_true, Option.filter_some,
      User.telegramHandle, hshared, decide_true]

/-- The VK side of the link. -/
theorem findLinked_vk (h : User.vk vk ∈ users.rows) :
    users.findLinked (.vk vk) = some linked ↔
      ∃ telegram, linked = .telegram telegram ∧ users.Pair telegram vk := by
  constructor
  · intro hlinked
    simp only [findLinked] at hlinked
    split at hlinked
    · exact nomatch hlinked
    · next handle hhandle =>
      split at hlinked
      · next owner howners =>
        obtain rfl := Option.some.inj hlinked
        obtain ⟨hmem, hclaims, hshared⟩ := mem_owners.mp (howners ▸ List.mem_singleton_self owner)
        exact ⟨owner, rfl, hmem, h, hclaims, handle, hshared, hhandle, howners⟩
      · exact nomatch hlinked
  · rintro ⟨telegram, rfl, hpair⟩
    obtain ⟨handle, -, hshared, howners⟩ := hpair.shared
    simp only [findLinked, hshared, howners]

/-- **The link is its own inverse**, and joins two platforms. -/
theorem findLinked_symm (h : user ∈ users.rows) (hlinked : users.findLinked user = some linked) :
    linked ∈ users.rows ∧ users.findLinked linked = some user ∧
      user.identity.platform ≠ linked.identity.platform := by
  cases user with
  | telegram telegram =>
    obtain ⟨vk, rfl, hpair⟩ := (findLinked_telegram h).mp hlinked
    have hback := (findLinked_vk hpair.storedVk).mpr ⟨telegram, rfl, hpair⟩
    exact ⟨hpair.storedVk, hback, nofun⟩
  | vk vk =>
    obtain ⟨telegram, rfl, hpair⟩ := (findLinked_vk h).mp hlinked
    have hback := (findLinked_telegram hpair.stored).mpr ⟨vk, rfl, hpair⟩
    exact ⟨hpair.stored, hback, nofun⟩

/-! ## The grouping over the stored profiles -/

/-- The latest profile of the person that a user is. -/
def latest (users : Users) (user : User) : User :=
  match users.findLinked user with
  | none => user
  | some other => currentProfile user other

/-- What the validators of both profile models promise of a stored handle. -/
def Normalized (bot : Deployment) (users : Users) : Prop :=
  ∀ user ∈ users.rows, ∀ handle, user.telegramHandle = some handle →
    ∃ value, normalizeTelegramHandle bot value = .ok (some handle)

theorem Normalized.ne_empty {bot : Deployment} (hnormal : users.Normalized bot)
    (h : user ∈ users.rows) {handle : String} (hhandle : user.telegramHandle = some handle) :
    handle ≠ "" := by
  obtain ⟨value, hvalue⟩ := hnormal user h handle hhandle
  obtain ⟨name, rfl⟩ := handle_of_normalize hvalue
  simp

theorem passOwners_listPassPreferences (users : Users) (vkId : Nat) (handle : String) :
    passOwners users.listPassPreferences vkId handle =
      (users.owners vkId handle).map fun telegram => (User.telegram telegram).passPreference := by
  show passOwners (users.rows.map User.passPreference) vkId handle = _
  unfold owners passOwners
  induction users.rows with
  | nil => rfl
  | cons user rows ih =>
    cases user with
    | vk profile => simpa [User.passPreference, User.identity] using ih
    | telegram profile =>
      by_cases h : profile.linkedVkId = some vkId ∧ profile.telegramHandle = some handle
      · simpa [User.passPreference, User.identity, User.telegramHandle, h] using ih
      · have hfalse : (decide (profile.linkedVkId = some vkId) &&
            decide (profile.telegramHandle = some handle)) = false := by
          simpa using h
        simpa [User.passPreference, User.identity, User.telegramHandle, h, hfalse] using ih

theorem passVkProfile_listPassPreferences (users : Users) (vkId : Nat) :
    passVkProfile users.listPassPreferences vkId =
      (users.get .vk vkId).map User.passPreference := by
  have hrows : users.listPassPreferences.filter
      (fun profile => profile.platform = .vk && profile.userId = vkId) =
        (users.rows.filter fun user => user.identity = ⟨.vk, vkId⟩).map User.passPreference := by
    show (users.rows.map User.passPreference).filter _ = _
    rw [List.filter_map]
    congr 1
    apply List.filter_congr
    intro user _
    rw [Bool.eq_iff_iff]
    cases user with
    | telegram profile => simp [User.passPreference, User.identity]
    | vk profile =>
      by_cases h : profile.vkId = vkId <;> simp [User.passPreference, User.identity, h]
  unfold passVkProfile
  rw [hrows, Table.rows_filter_key]
  show (((users.get .vk vkId).toList).map User.passPreference).getLast? = _
  cases users.get .vk vkId <;> rfl

/-- The two rows that are put together under a VK account and a handle are those of a pair. -/
theorem passPair_iff {vkId : Nat} {handle : String} (hne : handle ≠ "")
    {row rowVk : UserPassPreference} :
    passPair users.listPassPreferences (some vkId) (some handle) = some (row, rowVk) ↔
      ∃ telegram vk, users.Pair telegram vk ∧ vk.vkId = vkId ∧
        telegram.telegramHandle = some handle ∧
        row = (User.telegram telegram).passPreference ∧ rowVk = (User.vk vk).passPreference := by
  simp only [passPair, if_neg hne, passOwners_listPassPreferences,
    passVkProfile_listPassPreferences]
  constructor
  · intro h
    split at h
    · next telegramRow vkRow howners hvk =>
      obtain ⟨telegram, hsole, rfl⟩ := List.map_eq_singleton_iff.mp howners
      obtain ⟨user, hget, rfl⟩ := Option.map_eq_some_iff.mp hvk
      obtain ⟨vk, rfl, rfl, hstored⟩ := get_vk hget
      split at h
      · next hshared =>
        obtain ⟨rfl, rfl⟩ := Prod.mk.inj (Option.some.inj h)
        obtain ⟨hmem, hclaims, hhandle⟩ :=
          mem_owners.mp (hsole ▸ List.mem_singleton_self telegram)
        exact ⟨telegram, vk, ⟨hmem, hstored, hclaims, handle, hhandle, hshared, hsole⟩, rfl,
          hhandle, rfl, rfl⟩
      · exact nomatch h
    · exact nomatch h
  · rintro ⟨telegram, vk, hpair, rfl, hhandle, rfl, rfl⟩
    obtain ⟨other, hother, hshared, howners⟩ := hpair.shared
    obtain rfl := Option.some.inj (hother.symm.trans hhandle)
    have hget : users.get .vk vk.vkId = some (.vk vk) := Table.find?_key hpair.storedVk
    have hvkHandle : (User.vk vk).passPreference.telegramHandle = some other := hshared
    simp only [howners, hget, List.map_cons, List.map_nil, Option.map_some, hvkHandle, if_true]

theorem passPairOf_telegram {bot : Deployment} (hnormal : users.Normalized bot)
    (h : User.telegram telegram ∈ users.rows) {row rowVk : UserPassPreference} :
    passPairOf users.listPassPreferences (User.telegram telegram).passPreference = some (row, rowVk) ↔
      ∃ vk, users.Pair telegram vk ∧ row = (User.telegram telegram).passPreference ∧
        rowVk = (User.vk vk).passPreference := by
  show passPair _ telegram.linkedVkId telegram.telegramHandle = _ ↔ _
  cases hvkId : telegram.linkedVkId with
  | none =>
    refine ⟨fun hrows => (by cases hrows), ?_⟩
    rintro ⟨vk, hpair, -⟩
    cases hvkId.symm.trans hpair.claims
  | some vkId =>
    cases hhandle : telegram.telegramHandle with
    | none =>
      refine ⟨fun hrows => (by cases hrows), ?_⟩
      rintro ⟨vk, hpair, -⟩
      obtain ⟨handle, hshared, -⟩ := hpair.shared
      cases hhandle.symm.trans hshared
    | some handle =>
      rw [passPair_iff (hnormal.ne_empty h hhandle)]
      constructor
      · rintro ⟨other, vk, hpair, rfl, hother, rfl, rfl⟩
        -- The pair is the only owner of the account, so it is this profile.
        obtain ⟨shared, hshared, -, howners⟩ := hpair.shared
        obtain rfl := Option.some.inj (hshared.symm.trans hother)
        have hmem := mem_owners.mpr ⟨h, hvkId, hhandle⟩
        rw [howners, List.mem_singleton] at hmem
        subst hmem
        exact ⟨vk, hpair, rfl, rfl⟩
      · rintro ⟨vk, hpair, rfl, rfl⟩
        exact ⟨telegram, vk, hpair, Option.some.inj (hpair.claims.symm.trans hvkId), hhandle, rfl,
          rfl⟩

theorem passPairOf_vk {bot : Deployment} (hnormal : users.Normalized bot)
    (h : User.vk vk ∈ users.rows) {row rowVk : UserPassPreference} :
    passPairOf users.listPassPreferences (User.vk vk).passPreference = some (row, rowVk) ↔
      ∃ telegram, users.Pair telegram vk ∧ row = (User.telegram telegram).passPreference ∧
        rowVk = (User.vk vk).passPreference := by
  show passPair _ (some vk.vkId) vk.telegramHandle = _ ↔ _
  cases hhandle : vk.telegramHandle with
  | none =>
    refine ⟨fun hrows => (by cases hrows), ?_⟩
    rintro ⟨telegram, hpair, -⟩
    obtain ⟨handle, -, hshared, -⟩ := hpair.shared
    cases hhandle.symm.trans hshared
  | some handle =>
    rw [passPair_iff (hnormal.ne_empty h hhandle)]
    constructor
    · rintro ⟨telegram, other, hpair, hid, -, rfl, rfl⟩
      have heq : User.vk other = User.vk vk :=
        Table.eq_of_key_eq hpair.storedVk h (by simp only [User.identity, hid])
      obtain rfl := User.vk.inj heq
      exact ⟨telegram, hpair, rfl, rfl⟩
    · rintro ⟨telegram, hpair, rfl, rfl⟩
      obtain ⟨shared, hshared, hother, -⟩ := hpair.shared
      obtain rfl := Option.some.inj (hother.symm.trans hhandle)
      exact ⟨telegram, vk, hpair, rfl, hshared, rfl, rfl⟩

theorem passPartner_eq {bot : Deployment} (hnormal : users.Normalized bot) (h : user ∈ users.rows) :
    passPartner users.listPassPreferences user.passPreference =
      (users.findLinked user).map User.passPreference := by
  ext row
  simp only [passPartner, Option.map_eq_some_iff, Prod.exists]
  cases user with
  | telegram telegram =>
    simp only [passPairOf_telegram hnormal h, findLinked_telegram h]
    constructor
    · rintro ⟨_, _, ⟨vk, hpair, rfl, rfl⟩, rfl⟩
      exact ⟨.vk vk, ⟨vk, rfl, hpair⟩, rfl⟩
    · rintro ⟨_, ⟨vk, rfl, hpair⟩, rfl⟩
      exact ⟨_, _, ⟨vk, hpair, rfl, rfl⟩, rfl⟩
  | vk vk =>
    simp only [passPairOf_vk hnormal h, findLinked_vk h]
    constructor
    · rintro ⟨_, _, ⟨telegram, hpair, rfl, rfl⟩, rfl⟩
      exact ⟨.telegram telegram, ⟨telegram, rfl, hpair⟩, rfl⟩
    · rintro ⟨_, ⟨telegram, rfl, hpair⟩, rfl⟩
      exact ⟨_, _, ⟨telegram, hpair, rfl, rfl⟩, rfl⟩

theorem currentProfile_passPreference (first second : User) :
    (currentProfile first second).passPreference =
      if preferSecond first.passPreference second.passPreference then second.passPreference
      else first.passPreference := by
  unfold currentProfile preferSecond
  simp only [apply_ite User.passPreference, decide_eq_true_eq]
  rfl

/-- The later one of two profiles does not depend on which is asked first. -/
theorem currentProfile_comm {first second : User}
    (h : first.identity.platform.value ≠ second.identity.platform.value) :
    currentProfile first second = currentProfile second first := by
  unfold currentProfile
  have hne : (toLex (first.base.updatedAt, toLex (first.identity.platform.value,
      first.identity.platformUserId)) : Time ×ₗ String ×ₗ Nat) ≠
      toLex (second.base.updatedAt, toLex (second.identity.platform.value,
        second.identity.platformUserId)) := by
    intro heq
    exact h (congrArg (fun order => (ofLex (ofLex order).2).1) heq)
  rcases lt_or_gt_of_ne hne with hlt | hlt
  · simp only [hlt, if_true, not_lt_of_gt hlt, if_false]
  · simp only [hlt, if_true, not_lt_of_gt hlt, if_false]

theorem platform_value_ne (hlinked : users.findLinked user = some linked) (h : user ∈ users.rows) :
    user.identity.platform.value ≠ linked.identity.platform.value := by
  cases user with
  | telegram telegram =>
    obtain ⟨vk, rfl, -⟩ := (findLinked_telegram h).mp hlinked
    show "telegram" ≠ "vk"
    decide
  | vk vk =>
    obtain ⟨telegram, rfl, -⟩ := (findLinked_vk h).mp hlinked
    show "vk" ≠ "telegram"
    decide

theorem latest_of_some (hlinked : users.findLinked user = some linked) :
    users.latest user = currentProfile user linked := by
  rw [latest, hlinked]

/-- Both profiles of a person have the same latest profile. -/
theorem latest_linked (h : user ∈ users.rows) (hlinked : users.findLinked user = some linked) :
    users.latest linked = users.latest user := by
  obtain ⟨-, hback, -⟩ := findLinked_symm h hlinked
  rw [latest_of_some hlinked, latest_of_some hback]
  exact currentProfile_comm (platform_value_ne hlinked h).symm

theorem passCurrent_eq {bot : Deployment} (hnormal : users.Normalized bot) (h : user ∈ users.rows) :
    passCurrent users.listPassPreferences user.passPreference =
      (users.latest user).passPreference := by
  cases hlinked : users.findLinked user with
  | none =>
    have hpartner := passPartner_eq hnormal h
    rw [hlinked, Option.map_none, passPartner, Option.map_eq_none_iff] at hpartner
    simp only [passCurrent, hpartner, latest, hlinked]
  | some linked =>
    have hne := platform_value_ne hlinked h
    rw [latest_of_some hlinked]
    cases user with
    | telegram telegram =>
      obtain ⟨vk, rfl, hpair⟩ := (findLinked_telegram h).mp hlinked
      have hrows := (passPairOf_telegram hnormal h).mpr ⟨vk, hpair, rfl, rfl⟩
      rw [currentProfile_passPreference]
      simp only [passCurrent, hrows]
    | vk vk =>
      obtain ⟨telegram, rfl, hpair⟩ := (findLinked_vk h).mp hlinked
      have hrows := (passPairOf_vk hnormal h).mpr ⟨telegram, hpair, rfl, rfl⟩
      rw [currentProfile_comm hne, currentProfile_passPreference]
      simp only [passCurrent, hrows]

/-! ## The day's list -/

/-- Whether a profile is the first one of its person in the table. -/
def leads (users : Users) (user : User) : Bool :=
  (users.findLinked user).all fun other => users.rows.idxOf user < users.rows.idxOf other

/-- What the list of a day takes of a person, from any of the profiles. -/
def dayDetails (users : Users) (belongs : BotIdentity → Bool) (user : User) : Option PassDetails :=
  if ((user :: (users.findLinked user).toList).map User.identity).any belongs &&
      (users.latest user).base.needsPass = some true then
    (users.latest user).base.passDetails
  else none

theorem leads_linked (h : user ∈ users.rows) (hlinked : users.findLinked user = some linked) :
    users.leads user = !users.leads linked := by
  obtain ⟨hmem, hback, hplatform⟩ := findLinked_symm h hlinked
  have hne : users.rows.idxOf user ≠ users.rows.idxOf linked := by
    intro heq
    exact hplatform (by rw [(List.idxOf_inj h).mp heq])
  rw [leads, leads, hlinked, hback, Option.all_some, Option.all_some]
  by_cases hlt : users.rows.idxOf user < users.rows.idxOf linked
  · have hnot : ¬users.rows.idxOf linked < users.rows.idxOf user := by omega
    simp [hlt, hnot]
  · have hlt' : users.rows.idxOf linked < users.rows.idxOf user := by omega
    simp [hlt, hlt']

/-- The identities that are done once the profiles before a place are: theirs and their
partners'. -/
def Seen (users : Users) (done : List User) (seen : List BotIdentity) : Prop :=
  ∀ identity, identity ∈ seen ↔ ∃ user ∈ done, user.identity = identity ∨
    ∃ linked, users.findLinked user = some linked ∧ linked.identity = identity

variable {done rest : List User} {seen : List BotIdentity}

/-- The group of the next profile is done if and only if its partner came before. -/
theorem Seen.group_iff (hseen : users.Seen done seen) (hrows : users.rows = done ++ user :: rest) :
    ((user :: (users.findLinked user).toList).map User.identity).any (· ∈ seen) ↔
      ∃ linked ∈ done, users.findLinked user = some linked := by
  have hmem : user ∈ users.rows := by rw [hrows]; simp
  have hdone : ∀ other ∈ done, other ∈ users.rows := fun other h => by rw [hrows]; simp [h]
  have hnew : user ∉ done := by
    intro h
    have hnodup := users.rows_nodup
    rw [hrows, List.nodup_append] at hnodup
    exact hnodup.2.2 _ h _ List.mem_cons_self rfl
  constructor
  · intro h
    obtain ⟨identity, hidentity, hin⟩ := List.any_eq_true.mp h
    obtain ⟨profile, hprofile, rfl⟩ := List.mem_map.mp hidentity
    obtain ⟨other, hother, hcase⟩ := (hseen _).mp (of_decide_eq_true hin)
    rcases List.mem_cons.mp hprofile with rfl | hpartner
    · rcases hcase with hsame | ⟨linked, hlinked, hsame⟩
      · rw [Table.eq_of_key_eq (hdone other hother) hmem hsame] at hother
        exact absurd hother hnew
      · obtain ⟨hstored, hback, -⟩ := findLinked_symm (hdone other hother) hlinked
        rw [Table.eq_of_key_eq hstored hmem hsame] at hback
        exact ⟨other, hother, hback⟩
    · have hlinked := Option.mem_toList.mp hpartner
      obtain ⟨hstored, hback, -⟩ := findLinked_symm hmem hlinked
      rcases hcase with hsame | ⟨third, hthird, hsame⟩
      · rw [Table.eq_of_key_eq (hdone other hother) hstored hsame] at hother
        exact ⟨profile, hother, hlinked⟩
      · obtain ⟨hstored', hback', -⟩ := findLinked_symm (hdone other hother) hthird
        rw [Table.eq_of_key_eq hstored' hstored hsame, hback] at hback'
        rw [← Option.some.inj hback'] at hother
        exact absurd hother hnew
  · rintro ⟨linked, hlinked, hfound⟩
    rw [List.any_eq_true]
    refine ⟨linked.identity, ?_, decide_eq_true ((hseen _).mpr ⟨linked, hlinked, .inl rfl⟩)⟩
    simp [hfound]

theorem leads_iff (hrows : users.rows = done ++ user :: rest) :
    users.leads user ↔ ¬∃ linked ∈ done, users.findLinked user = some linked := by
  have hmem : user ∈ users.rows := by rw [hrows]; simp
  have hnew : user ∉ done := by
    intro h
    have hnodup := users.rows_nodup
    rw [hrows, List.nodup_append] at hnodup
    exact hnodup.2.2 _ h _ List.mem_cons_self rfl
  have hindex : users.rows.idxOf user = done.length := by
    rw [hrows, List.idxOf_append_of_notMem hnew, List.idxOf_cons_self, Nat.add_zero]
  rw [leads, hindex]
  cases hlinked : users.findLinked user with
  | none => simp
  | some linked =>
    obtain ⟨hstored, -, hplatform⟩ := findLinked_symm hmem hlinked
    by_cases hin : linked ∈ done
    · have hlt := List.idxOf_lt_length_of_mem hin
      have hlinkedIndex : users.rows.idxOf linked = done.idxOf linked := by
        rw [hrows, List.idxOf_append_of_mem hin]
      have hnot : ¬done.length < users.rows.idxOf linked := by omega
      simp [hin, hnot]
    · have hne : user ≠ linked := fun h => hplatform (by rw [h])
      have hlt : done.length < users.rows.idxOf linked := by
        rw [hrows, List.idxOf_append_of_notMem hin, List.idxOf_cons_ne _ hne]
        omega
      simp [hin, hlt]

theorem dailyProfiles_cons (users : Users) (belongs : BotIdentity → Bool) (user : User)
    (pairs : List (User × Option User)) :
    dailyProfiles belongs seen ((user, users.findLinked user) :: pairs) =
      let group := (user :: (users.findLinked user).toList).map User.identity
      if group.any (· ∈ seen) then dailyProfiles belongs seen pairs
      else (users.dayDetails belongs user).toList ++ dailyProfiles belongs (group ++ seen) pairs := by
  unfold dayDetails latest
  cases users.findLinked user <;> rfl

theorem dailyProfiles_eq (belongs : BotIdentity → Bool) (hseen : users.Seen done seen)
    (hrows : users.rows = done ++ rest) :
    dailyProfiles belongs seen (rest.map fun user => (user, users.findLinked user)) =
      (rest.filter users.leads).filterMap (users.dayDetails belongs) := by
  induction rest generalizing done seen with
  | nil => rfl
  | cons user rest ih =>
    have hgroup := hseen.group_iff hrows
    have hleads := leads_iff hrows
    have hrows' : users.rows = (done ++ [user]) ++ rest := by simpa using hrows
    rw [List.map_cons, dailyProfiles_cons]
    by_cases hdone : ∃ linked ∈ done, users.findLinked user = some linked
    · -- The person was taken with the partner: nothing is added, and nothing new is done.
      have hnot : users.leads user = false := by
        rw [← Bool.not_eq_true, hleads]
        exact not_not_intro hdone
      have hseen' : users.Seen (done ++ [user]) seen := by
        obtain ⟨linked, hlinked, hfound⟩ := hdone
        have hmem : user ∈ users.rows := by rw [hrows]; simp
        obtain ⟨-, hback, -⟩ := findLinked_symm hmem hfound
        intro identity
        rw [hseen]
        constructor
        · rintro ⟨other, hother, h⟩
          exact ⟨other, List.mem_append_left _ hother, h⟩
        · rintro ⟨other, hother, h⟩
          rcases List.mem_append.mp hother with hother | hother
          · exact ⟨other, hother, h⟩
          · rw [List.mem_singleton.mp hother] at h
            refine ⟨linked, hlinked, ?_⟩
            rcases h with h | ⟨third, hthird, h⟩
            · exact .inr ⟨user, hback, h⟩
            · rw [hfound] at hthird
              rw [← Option.some.inj hthird] at h
              exact .inl h
      rw [if_pos (hgroup.mpr hdone), ih hseen' hrows', List.filter_cons_of_neg (by simp [hnot])]
    · have hlead : users.leads user = true := hleads.mpr hdone
      rw [if_neg fun h => hdone (hgroup.mp h), List.filter_cons_of_pos hlead, List.filterMap_cons]
      have hseen' : users.Seen (done ++ [user])
          ((user :: (users.findLinked user).toList).map User.identity ++ seen) := by
        intro identity
        rw [List.mem_append, hseen, List.mem_map]
        constructor
        · rintro (⟨profile, hprofile, rfl⟩ | ⟨other, hother, h⟩)
          · refine ⟨user, by simp, ?_⟩
            rcases List.mem_cons.mp hprofile with rfl | hpartner
            · exact .inl rfl
            · exact .inr ⟨profile, Option.mem_toList.mp hpartner, rfl⟩
          · exact ⟨other, List.mem_append_left _ hother, h⟩
        · rintro ⟨other, hother, h⟩
          rcases List.mem_append.mp hother with hother | hother
          · exact .inr ⟨other, hother, h⟩
          · rw [List.mem_singleton.mp hother] at h
            rcases h with h | ⟨linked, hlinked, h⟩
            · exact .inl ⟨user, List.mem_cons_self, h⟩
            · exact .inl ⟨linked, by simp [hlinked], h⟩
      rw [ih hseen' hrows']
      cases users.dayDetails belongs user <;> rfl

end Users

/-! ## The law -/

/-- All resolvers read one relation between the profiles. -/
structure ResolversAgree (bot : Deployment) (users : Users) : Prop where
  /-- The link is its own inverse, and joins two stored profiles of two platforms. -/
  involution : ∀ user ∈ users.rows, ∀ linked, users.findLinked user = some linked →
    linked ∈ users.rows ∧ users.findLinked linked = some user ∧
      user.identity.platform ≠ linked.identity.platform
  /-- The projection groups each user with the partner that the link finds, -/
  partner : ∀ user ∈ users.rows, passPartner users.listPassPreferences user.passPreference =
    (users.findLinked user).map User.passPreference
  /-- and takes the latest profile of the two, which is the same one for both. -/
  current : ∀ user ∈ users.rows,
    passCurrent users.listPassPreferences user.passPreference = (users.latest user).passPreference ∧
      ∀ linked, users.findLinked user = some linked → users.latest linked = users.latest user
  /-- So the answers of an event are those of the latest profiles. -/
  answers : ∀ eventId activeKeys,
    eventPassPreferences bot users.listPassPreferences eventId activeKeys =
      users.rows.foldl (fun answers user =>
        let key := bot.keyOf user.identity eventId
        if key ∈ activeKeys then assign answers key (users.latest user).base.needsPass
        else answers) []
  /-- One profile of a person stands for it in the list of a day, -/
  leader : ∀ user ∈ users.rows, ∀ linked, users.findLinked user = some linked →
    users.leads user = !users.leads linked
  /-- and the list takes each person once, by the latest profile. -/
  daily : ∀ belongs, dailyProfiles belongs [] (users.rows.zip (users.rows.map users.findLinked)) =
    (users.rows.filter users.leads).filterMap (users.dayDetails belongs)
  /-- A local user stands for the same identities as the linked one. -/
  identities : ∀ user ∈ users.rows, ∀ linked, users.findLinked user = some linked →
    users.identitiesOf linked.identity.platform linked.identity.platformUserId =
      (users.identitiesOf user.identity.platform user.identity.platformUserId).reverse
  resolved : ∀ (w : World) (s : Nat → Input) (platform : Platform) (userId : Nat), w.users = users →
    ((identitiesForLocalUser platform userId).run storage s w).1 =
      .ok (users.identitiesOf platform userId)

theorem identitiesOf_stored {users : Users} {user : User} (h : user ∈ users.rows) :
    users.identitiesOf user.identity.platform user.identity.platformUserId =
      (user :: (users.findLinked user).toList).map User.identity := by
  have hget : users.get user.identity.platform user.identity.platformUserId = some user :=
    Table.find?_key h
  rw [Users.identitiesOf, hget]

theorem run_identitiesForLocalUser (w : World) (s : Nat → Input) (platform : Platform)
    (userId : Nat) : ((identitiesForLocalUser platform userId).run storage s w).1 =
      .ok (w.users.identitiesOf platform userId) := by
  have hdoes : does (fun _ => True)
      (fun identities w' => w' = w ∧ identities = w.users.identitiesOf platform userId)
      (fun _ _ => False) (identitiesForLocalUser platform userId) w :=
    does_identitiesForLocalUser platform userId
  obtain ⟨hok, herror⟩ := run_of_does hdoes (s := s) fun _ => trivial
  cases hrun : ((identitiesForLocalUser platform userId).run storage s w).1 with
  | ok identities => rw [(hok identities hrun).2]
  | error e => exact (herror e hrun).elim

/-- **All resolvers agree** on who belongs together, for every set of stored profiles. -/
theorem resolvers_agree {bot : Deployment} {users : Users} (hnormal : users.Normalized bot) :
    ResolversAgree bot users where
  involution _ h _ hlinked := Users.findLinked_symm h hlinked
  partner _ h := Users.passPartner_eq hnormal h
  current _ h := ⟨Users.passCurrent_eq hnormal h, fun _ => Users.latest_linked h⟩
  answers eventId activeKeys := by
    rw [eventPassPreferences_eq]
    show (users.rows.map User.passPreference).foldl _ [] = _
    rw [List.foldl_map]
    apply List.foldl_ext
    intro answers user h
    have hcurrent := Users.passCurrent_eq hnormal h
    show (if _ then assign answers _ (passCurrent users.listPassPreferences _).needsPass else _) = _
    rw [hcurrent]
    rfl
  leader _ h _ hlinked := Users.leads_linked h hlinked
  daily belongs := by
    have hnone : users.Seen [] [] := by simp [Users.Seen]
    rw [← List.map_prod_left_eq_zip]
    exact Users.dailyProfiles_eq belongs hnone rfl
  identities user h linked hlinked := by
    obtain ⟨hstored, hback, -⟩ := Users.findLinked_symm h hlinked
    rw [identitiesOf_stored h, identitiesOf_stored hstored, hlinked, hback]
    rfl
  resolved w s platform userId h := h ▸ run_identitiesForLocalUser w s platform userId

/-- A person with two profiles, one without the other, and an account that two profiles claim. -/
def linkedUsers : Users :=
  Table.ofList [
    .telegram { tgId := 1, linkedVkId := some 10, telegramHandle := some "@player_one" },
    .vk { vkId := 10, telegramHandle := some "@player_one", updatedAt := 5 },
    .telegram { tgId := 2, linkedVkId := some 11, telegramHandle := some "@player_two" },
    .telegram { tgId := 3, linkedVkId := some 11, telegramHandle := some "@player_two" },
    .vk { vkId := 11, telegramHandle := some "@player_two" }]

/-- The claimed account stays alone, and so do both profiles that claim it. -/
theorem linkedUsers_agree :
    linkedUsers.rows.map (fun user => (linkedUsers.findLinked user).map User.identity) =
      [some ⟨.vk, 10⟩, some ⟨.telegram, 1⟩, none, none, none] ∧
    ResolversAgree sampleBot linkedUsers := by
  refine ⟨by decide +kernel, resolvers_agree ?_⟩
  have hone : normalizeTelegramHandle sampleBot (some "player_one") = .ok (some "@player_one") := by
    decide +kernel
  have htwo : normalizeTelegramHandle sampleBot (some "player_two") = .ok (some "@player_two") := by
    decide +kernel
  have hhandles : ∀ user ∈ linkedUsers.rows, user.telegramHandle = some "@player_one" ∨
      user.telegramHandle = some "@player_two" := by
    decide +kernel
  intro user h handle hhandle
  rcases hhandles user h with hvalue | hvalue
  · obtain rfl := Option.some.inj (hvalue.symm.trans hhandle)
    exact ⟨_, hone⟩
  · obtain rfl := Option.some.inj (hvalue.symm.trans hhandle)
    exact ⟨_, htwo⟩

end LarpBot
