import LarpBot.Adapters.StatisticsWorkbooks
import LarpBot.Laws.PassTables
import LarpBot.Application.Statistics

/-!
# Whom the statistics credit

`add_game` puts together the names of the confirmed registrations and of the members of the game's chat,
and from then on there are names only. Behind each of them stands one credit: a confirmed row, or a member of
the chat who is no master (`playerCredits`). Whether a person is credited under one name depends on
whether the names that the bot has of that person are the same (`credits_meet_iff`).
-/

namespace LarpBot

open Atomic Act

/-- Who is in the chat, by Telegram numbers. -/
abbrev Membership := Nat → Option ChatMember

/-- The answers of an outside with these members. -/
def Answers (members : Membership) (i : Input) : Prop :=
  ∀ chatId userId requestId, i (.getChatMember chatId userId requestId) = some (members userId)

section Chat

variable (users : Users) (members : Membership) (leaders : List BotIdentity)

/-- A Telegram profile that `_manual_telegram_players` takes for a player: a member of the chat who does
not run it, and no master under either account. -/
def playsInChat (user : TelegramUser) : Bool :=
  (members user.tgId).any ChatMember.isPlayer &&
    !((User.telegram user :: (users.findLinked (.telegram user)).toList).map User.identity).any (· ∈ leaders)

def telegramUsers : List TelegramUser :=
  sortBy TelegramUser.tgId (users.rows.filterMap fun
    | .telegram user => some user
    | .vk _ => none)

/-- The players that come in through the chat. -/
def chatPlayers : List TelegramUser :=
  (telegramUsers users).filter (playsInChat users members leaders)

end Chat

section Runs

variable {w : World} {members : Membership} {leaders : List BotIdentity} {chatId : Int}
  {operationId : OperationId}

theorem does_rejectIf {β : Type} {admits : Input → Prop} {X : Failure → World → Prop} {c : Bool}
    {text : String} {f : Unit → Act β} {Q : β → World → Prop}
    (hX : c = true → ∀ e, X e w) (h : c = false → does admits Q X (f ()) w) :
    does admits Q X (rejectIf c text >>= f) w := by
  cases c
  · exact h rfl
  · exact hX rfl _

/-- What an inspection of a member finds. -/
def inspected (users : Users) (members : Membership) (leaders : List BotIdentity) (user : TelegramUser) :
    Option String × Option Nat :=
  if playsInChat users members leaders user then
    match user.fullName with
    | none => (none, some user.tgId)
    | some fullName => (some (surnameAndName fullName), none)
  else (none, none)

theorem does_inspectMember {X : Failure → World → Prop} (user : TelegramUser) :
    does (Answers members) (fun found w' => w' = w ∧ found = inspected w.users members leaders user) X
      (inspectMember chatId leaders operationId user) w := by
  refine does_outside (fun _ => rfl) fun i hi => does_present (hi _ _ _) ?_
  by_cases hplayer : (members user.tgId).any ChatMember.isPlayer = true
  · rw [hplayer]
    refine does_findLinked ?_
    generalize hgroup : User.telegram user :: (w.users.findLinked (.telegram user)).toList = group
    by_cases hleads : (group.map User.identity).any (· ∈ leaders) = true
    · have hnot : playsInChat w.users members leaders user = false := by
        rw [playsInChat, hgroup, hleads, hplayer]
        rfl
      show does _ _ _ (if (group.map User.identity).any (· ∈ leaders) then _ else _) w
      rw [if_pos hleads]
      refine ⟨rfl, ?_⟩
      rw [inspected, hnot]
      rfl
    · have hplays : playsInChat w.users members leaders user = true := by
        rw [playsInChat, hgroup, hplayer]
        simpa using hleads
      show does _ _ _ (if (group.map User.identity).any (· ∈ leaders) then _ else _) w
      rw [if_neg hleads]
      refine ⟨rfl, ?_⟩
      cases hname : user.fullName <;> simp [inspected, hplays, hname]
  · have hnot : playsInChat w.users members leaders user = false := by
      rw [playsInChat, Bool.eq_false_iff.mpr hplayer, Bool.false_and]
    rw [Bool.eq_false_iff.mpr hplayer]
    refine ⟨rfl, ?_⟩
    rw [inspected, hnot]
    rfl

theorem does_inTaskGroup {α : Type} {admits : Input → Prop} {X : Failure → World → Prop} {p : Act α}
    {Q : α → World → Prop} (hp : does admits Q (fun _ _ => False) p w) :
    does admits Q X (inTaskGroup p) w :=
  wp_catching.mpr (wp_mono hp (fun _ _ h => h) fun _ _ h => h.elim)

/-- The names of the players that come in through the chat. -/
def chatNames (users : Users) (members : Membership) (leaders : List BotIdentity) : List String :=
  (chatPlayers users members leaders).filterMap fun user => user.fullName.map surnameAndName

theorem does_manualTelegramPlayers :
    does (Answers members) (fun names w' => w' = w ∧ names = chatNames w.users members leaders ∧
        ∀ user ∈ chatPlayers w.users members leaders, user.fullName.isSome = true)
      (fun _ _ => True) (manualTelegramPlayers chatId leaders w.users.rows operationId) w := by
  refine does_seq (does_inTaskGroup (X := fun _ _ => True) (does_traverse_map
    (inspected w.users members leaders) fun user _ => does_inspectMember user)) (fun _ _ h => h) ?_
  rintro results w' ⟨rfl, rfl⟩
  refine does_rejectIf (fun _ _ => trivial) fun hcomplete => ⟨rfl, ?_, ?_⟩
  · show ((telegramUsers w'.users).map _).filterMap _ = _
    rw [List.filterMap_map, chatNames, chatPlayers, List.filterMap_filter]
    apply List.filterMap_congr
    intro user _
    unfold inspected
    by_cases hplays : playsInChat w'.users members leaders user = true
    · simp only [Function.comp_apply, if_pos hplays]
      cases user.fullName <;> rfl
    · simp only [Function.comp_apply, if_neg hplays]
  · intro user huser
    obtain ⟨hmem, hplays⟩ := List.mem_filter.mp huser
    cases hname : user.fullName with
    | some fullName => rfl
    | none =>
      have hnumber : user.tgId ∈ ((telegramUsers w'.users).map (inspected w'.users members leaders)).filterMap
          Prod.snd := by
        refine List.mem_filterMap.mpr ⟨_, List.mem_map_of_mem hmem, ?_⟩
        rw [inspected, if_pos hplays, hname]
      rw [Bool.not_eq_false'] at hcomplete
      have hnil : ((telegramUsers w'.users).map (inspected w'.users members leaders)).filterMap Prod.snd =
          [] := List.isEmpty_iff.mp hcomplete
      rw [hnil] at hnumber
      exact absurd hnumber List.not_mem_nil

/-- The names that `add_game` hands to the workbook of the players. -/
def playerNames (event : Event) (rows : List Registration) (users : Users) (members : Membership)
    (leaders : List BotIdentity) : List String :=
  (confirmedRows rows).map (fun row => surnameAndName row.displayName) ++
    if event.telegramChatId.isSome then chatNames users members leaders else []

theorem does_attendance (event : Event) (rows : List Registration) :
    does (Answers members) (fun names w' => w' = w ∧
        names.1 = playerNames event rows w.users members leaders ∧
        (event.telegramChatId.isSome = true →
          ∀ user ∈ chatPlayers w.users members leaders, user.fullName.isSome = true))
      (fun _ _ => True) (attendance event operationId rows leaders w.users.rows) w := by
  unfold attendance
  refine does_seq (R := fun inChat w' => w' = w ∧
      inChat = (if event.telegramChatId.isSome then chatNames w.users members leaders else []) ∧
      (event.telegramChatId.isSome = true →
        ∀ user ∈ chatPlayers w.users members leaders, user.fullName.isSome = true))
    (Y := fun _ _ => True) ?_ (fun _ _ h => h) ?_
  · cases hchat : event.telegramChatId with
    | none => exact ⟨rfl, by simp, by simp⟩
    | some chatId =>
      refine does_mono does_manualTelegramPlayers ?_ fun _ _ h => h
      rintro names w' ⟨hw, hnames, hcomplete⟩
      exact ⟨hw, by simpa using hnames, fun _ => hcomplete⟩
  · rintro inChat w' ⟨rfl, rfl, hcomplete⟩
    cases masterNames w'.users.rows leaders with
    | none => trivial
    | some masters =>
      refine does_rejectIf (fun _ _ => trivial) fun _ => ?_
      exact does_rejectIf (fun _ _ => trivial) fun _ => ⟨rfl, rfl, hcomplete⟩

end Runs

/-! ## Persons and names -/

/-- What one of the names stands for: a registration, or somebody who is in the chat. -/
inductive Credit where
  | signedUp (row : Registration)
  | joined (telegram : TelegramUser)

namespace Credit

def name : Credit → Option String
  | .signedUp row => some (surnameAndName row.displayName)
  | .joined telegram => telegram.fullName.map surnameAndName

def row? : Credit → Option Registration
  | .signedUp row => some row
  | .joined _ => none

def member? : Credit → Option TelegramUser
  | .signedUp _ => none
  | .joined telegram => some telegram

end Credit

section Credits

variable (bot : Deployment) (event : Event) (rows : List Registration) (users : Users)
  (members : Membership) (leaders : List BotIdentity)

/-- A registration belongs to the person under whose key it is. -/
def IsRowOf (user : User) (row : Registration) : Prop :=
  ∃ profile, users.SamePerson user profile ∧ row.participantKey = bot.keyOf profile.identity event.eventId

def Credit.IsOf (user : User) : Credit → Prop
  | .signedUp row => IsRowOf bot event users user row
  | .joined telegram => users.SamePerson user (.telegram telegram)

/-- A profile of a member of the game's chat who does not run it, of a person who does not lead the
game under either account. -/
structure Joins (telegram : TelegramUser) : Prop where
  tied : event.telegramChatId.isSome = true
  stored : User.telegram telegram ∈ users.rows
  isPlayer : (members telegram.tgId).any ChatMember.isPlayer = true
  noLeader : ∀ profile, users.SamePerson (.telegram telegram) profile → profile.identity ∉ leaders

/-- The names passed are those of these credits, one credit for each confirmed row and one for each who
joined in the chat, and a person has one name among them. -/
structure Accounts (players : List String) (credits : List Credit) : Prop where
  passed : credits.map Credit.name = players.map some
  confirmed : (credits.filterMap Credit.row?).Perm (rows.filter (·.attendanceStatus = .confirmed))
  inChat : ∀ telegram, .joined telegram ∈ credits ↔ Joins event users members leaders telegram
  noTwice : (credits.filterMap Credit.member?).Nodup
  once : ∀ user ∈ users.rows, ∀ credit ∈ credits, ∀ credit' ∈ credits,
    credit.IsOf bot event users user → credit'.IsOf bot event users user →
    credit.name.map (normalizedName bot.casefold) = credit'.name.map (normalizedName bot.casefold)

/-- The names that are passed account for every player, once. -/
def CreditsMeet (players : List String) : Prop :=
  ∃ credits, Accounts bot event rows users members leaders players credits

/-- Two names that are one to the workbook. -/
def SameName (name name' : String) : Prop :=
  normalizedName bot.casefold (surnameAndName name) = normalizedName bot.casefold (surnameAndName name')

/-- The names that the bot has of a person are the same: those of two confirmed rows, and that of a
confirmed row and of the profile in the chat. -/
structure NamesAgree : Prop where
  signedUp : ∀ user ∈ users.rows, ∀ row ∈ rows, ∀ row' ∈ rows, row.attendanceStatus = .confirmed →
    row'.attendanceStatus = .confirmed → IsRowOf bot event users user row →
    IsRowOf bot event users user row' → SameName bot row.displayName row'.displayName
  inChat : ∀ telegram fullName, Joins event users members leaders telegram →
    telegram.fullName = some fullName → ∀ row ∈ rows, row.attendanceStatus = .confirmed →
    IsRowOf bot event users (.telegram telegram) row → SameName bot row.displayName fullName

variable {bot event rows users members leaders}

theorem IsRowOf.of_samePerson {user other : User} {row : Registration}
    (h : IsRowOf bot event users user row) (hsame : users.SamePerson user other)
    (huser : user ∈ users.rows) : IsRowOf bot event users other row := by
  obtain ⟨profile, hprofile, hkey⟩ := h
  exact ⟨profile, (hsame.symm huser).trans hprofile (hsame.mem huser), hkey⟩

/-- A person has one Telegram profile. -/
theorem samePerson_telegram {user : User} {telegram telegram' : TelegramUser} (huser : user ∈ users.rows)
    (h : users.SamePerson user (.telegram telegram)) (h' : users.SamePerson user (.telegram telegram')) :
    telegram = telegram' := by
  have hmem := h.mem huser
  rcases (h.symm huser).trans h' hmem with hsame | hlinked
  · exact (User.telegram.inj hsame).symm
  · exact absurd rfl (Users.findLinked_symm hmem hlinked).2.2

theorem mem_telegramUsers {telegram : TelegramUser} :
    telegram ∈ telegramUsers users ↔ User.telegram telegram ∈ users.rows := by
  rw [telegramUsers, mem_sortBy, List.mem_filterMap]
  constructor
  · rintro ⟨user, huser, hsome⟩
    cases user with
    | telegram other => exact Option.some.inj hsome ▸ huser
    | vk other => exact absurd hsome.symm (Option.some_ne_none telegram)
  · exact fun h => ⟨_, h, rfl⟩

/-- A player of the chat is a member, and no profile of the person leads the game. -/
theorem mem_chatPlayers {telegram : TelegramUser} : telegram ∈ chatPlayers users members leaders ↔
    User.telegram telegram ∈ users.rows ∧ (members telegram.tgId).any ChatMember.isPlayer = true ∧
      ∀ profile, users.SamePerson (.telegram telegram) profile → profile.identity ∉ leaders := by
  rw [chatPlayers, List.mem_filter, mem_telegramUsers, playsInChat, Bool.and_eq_true, Bool.not_eq_true',
    ← Bool.not_eq_true, List.any_map, List.any_eq_true]
  simp only [Function.comp_apply, decide_eq_true_eq, Users.mem_group, not_exists, not_and]

theorem nodup_chatPlayers : (chatPlayers users members leaders).Nodup := by
  refine List.Nodup.filter _ (nodup_sortBy.mpr (users.rows_nodup.filterMap ?_))
  intro user user' telegram huser huser'
  cases user <;> cases user' <;> simp_all

/-- The credits of the names that `add_game` hands over. -/
def playerCredits (event : Event) (rows : List Registration) (users : Users) (members : Membership)
    (leaders : List BotIdentity) : List Credit :=
  (confirmedRows rows).map .signedUp ++
    if event.telegramChatId.isSome then (chatPlayers users members leaders).map .joined else []

theorem row_mem_playerCredits {row : Registration} :
    .signedUp row ∈ playerCredits event rows users members leaders ↔ row ∈ confirmedRows rows := by
  rw [playerCredits]
  split <;> simp

theorem member_mem_playerCredits {telegram : TelegramUser} :
    .joined telegram ∈ playerCredits event rows users members leaders ↔
      Joins event users members leaders telegram := by
  have hmem : .joined telegram ∈ playerCredits event rows users members leaders ↔
      event.telegramChatId.isSome = true ∧ telegram ∈ chatPlayers users members leaders := by
    rw [playerCredits]
    split <;> simp_all
  rw [hmem, mem_chatPlayers]
  constructor
  · rintro ⟨htied, hstored, hplayer, hleads⟩
    exact ⟨htied, hstored, hplayer, hleads⟩
  · rintro ⟨htied, hstored, hplayer, hleads⟩
    exact ⟨htied, hstored, hplayer, hleads⟩

theorem rows_of_playerCredits :
    (playerCredits event rows users members leaders).filterMap Credit.row? = confirmedRows rows := by
  have hrows : ∀ found : List Registration, (found.map Credit.signedUp).filterMap Credit.row? = found := by
    intro found
    rw [List.filterMap_map]
    exact List.filterMap_some
  rw [playerCredits, List.filterMap_append, hrows]
  split
  · rw [List.filterMap_map, show Credit.row? ∘ Credit.joined = fun _ => none from rfl,
      List.filterMap_none, List.append_nil]
  · rw [List.filterMap_nil, List.append_nil]

theorem members_of_playerCredits :
    ((playerCredits event rows users members leaders).filterMap Credit.member?).Nodup := by
  rw [playerCredits, List.filterMap_append, List.filterMap_map,
    show Credit.member? ∘ Credit.signedUp = fun _ => none from rfl, List.filterMap_none, List.nil_append]
  split
  · rw [List.filterMap_map, show Credit.member? ∘ Credit.joined = some from rfl, List.filterMap_some]
    exact nodup_chatPlayers
  · exact List.nodup_nil

theorem names_of_playerCredits (hnamed : event.telegramChatId.isSome = true →
      ∀ user ∈ chatPlayers users members leaders, user.fullName.isSome = true) :
    (playerCredits event rows users members leaders).map Credit.name =
      (playerNames event rows users members leaders).map some := by
  have hchat : ∀ found : List TelegramUser, (∀ user ∈ found, user.fullName.isSome = true) →
      (found.map Credit.joined).map Credit.name =
        (found.filterMap fun user => user.fullName.map surnameAndName).map some := by
    intro found hfound
    induction found with
    | nil => rfl
    | cons user found ih =>
      obtain ⟨fullName, hname⟩ := Option.isSome_iff_exists.mp (hfound user List.mem_cons_self)
      rw [List.map_cons, List.map_cons, ih fun other h => hfound other (List.mem_cons_of_mem _ h),
        List.filterMap_cons, Credit.name, hname]
      rfl
  rw [playerCredits, playerNames, List.map_append, List.map_append, List.map_map, List.map_map]
  refine congrArg₂ (· ++ ·) rfl ?_
  split
  · rename_i htied
    exact hchat _ (hnamed htied)
  · rfl

theorem sameName_iff {row : Registration} {name' : String} :
    (Credit.signedUp row).name.map (normalizedName bot.casefold) =
      some (normalizedName bot.casefold (surnameAndName name')) ↔ SameName bot row.displayName name' :=
  Option.some_inj

/-- If the names of each person agree, a person has one name among the credits. -/
theorem NamesAgree.once (h : NamesAgree bot event rows users members leaders) {user : User}
    (huser : user ∈ users.rows) {credit credit' : Credit}
    (hmem : credit ∈ playerCredits event rows users members leaders)
    (hmem' : credit' ∈ playerCredits event rows users members leaders)
    (howner : credit.IsOf bot event users user) (howner' : credit'.IsOf bot event users user)
    (hnamed : ∀ telegram, Joins event users members leaders telegram → telegram.fullName.isSome = true) :
    credit.name.map (normalizedName bot.casefold) = credit'.name.map (normalizedName bot.casefold) := by
  have hconfirmed : ∀ row, Credit.signedUp row ∈ playerCredits event rows users members leaders →
      row ∈ rows ∧ row.attendanceStatus = .confirmed := by
    intro row hrow
    obtain ⟨hrow, hstatus⟩ := List.mem_filter.mp (row_mem_playerCredits.mp hrow)
    exact ⟨hrow, of_decide_eq_true hstatus⟩
  have hmixed : ∀ row telegram, Credit.signedUp row ∈ playerCredits event rows users members leaders →
      Credit.joined telegram ∈ playerCredits event rows users members leaders →
      IsRowOf bot event users user row → users.SamePerson user (.telegram telegram) →
      (Credit.signedUp row).name.map (normalizedName bot.casefold) =
        (Credit.joined telegram).name.map (normalizedName bot.casefold) := by
    intro row telegram hrow hmember hof hsame
    have hjoins := member_mem_playerCredits.mp hmember
    obtain ⟨fullName, hname⟩ := Option.isSome_iff_exists.mp (hnamed telegram hjoins)
    obtain ⟨hrow, hstatus⟩ := hconfirmed row hrow
    rw [show (Credit.joined telegram).name = some (surnameAndName fullName) by
      rw [Credit.name, hname, Option.map_some], Option.map_some]
    exact sameName_iff.mpr (h.inChat telegram fullName hjoins hname row hrow hstatus
      (hof.of_samePerson hsame huser))
  cases credit with
  | signedUp row =>
    cases credit' with
    | signedUp row' =>
      obtain ⟨hrow, hstatus⟩ := hconfirmed row hmem
      obtain ⟨hrow', hstatus'⟩ := hconfirmed row' hmem'
      exact sameName_iff.mpr
        (h.signedUp user huser row hrow row' hrow' hstatus hstatus' howner howner')
    | joined telegram => exact hmixed row telegram hmem hmem' howner howner'
  | joined telegram =>
    cases credit' with
    | signedUp row => exact (hmixed row telegram hmem' hmem howner' howner).symm
    | joined telegram' => rw [samePerson_telegram huser howner howner']

theorem credits_meet_iff {players : List String}
    (hplayers : players = playerNames event rows users members leaders)
    (hnamed : event.telegramChatId.isSome = true →
      ∀ user ∈ chatPlayers users members leaders, user.fullName.isSome = true) :
    CreditsMeet bot event rows users members leaders players ↔
      NamesAgree bot event rows users members leaders := by
  constructor
  · rintro ⟨credits, h⟩
    have hrow : ∀ row ∈ rows, row.attendanceStatus = .confirmed → Credit.signedUp row ∈ credits := by
      intro row hmem hstatus
      have hfound := h.confirmed.mem_iff.mpr (List.mem_filter.mpr ⟨hmem, decide_eq_true hstatus⟩)
      obtain ⟨credit, hcredit, hsome⟩ := List.mem_filterMap.mp hfound
      cases credit with
      | signedUp other => exact Option.some.inj hsome ▸ hcredit
      | joined telegram => exact absurd hsome.symm (Option.some_ne_none row)
    constructor
    · intro user huser row hmem row' hmem' hstatus hstatus' hof hof'
      exact sameName_iff.mp (h.once user huser _ (hrow row hmem hstatus) _ (hrow row' hmem' hstatus')
        hof hof')
    · intro telegram fullName hjoins hname row hmem hstatus hof
      have honce := h.once _ hjoins.stored _ (hrow row hmem hstatus) _
        ((h.inChat telegram).mpr hjoins) hof (.inl rfl)
      rw [show (Credit.joined telegram).name = some (surnameAndName fullName) by
        rw [Credit.name, hname, Option.map_some], Option.map_some] at honce
      exact sameName_iff.mp honce
  · intro h
    refine ⟨playerCredits event rows users members leaders, ?_, ?_, fun _ => member_mem_playerCredits,
      members_of_playerCredits, ?_⟩
    · rw [hplayers]
      exact names_of_playerCredits hnamed
    · rw [rows_of_playerCredits]
      exact List.Perm.refl _
    · intro user huser credit hmem credit' hmem' howner howner'
      refine h.once huser hmem hmem' howner howner' fun telegram hjoins => ?_
      exact hnamed hjoins.tied telegram
        (mem_chatPlayers.mpr ⟨hjoins.stored, hjoins.isPlayer, hjoins.noLeader⟩)

end Credits

/-- Where `add_game` comes to the workbook of the players, its credits are as they should be if and only
if the names that the bot has of each person agree. -/
theorem statistics_credits_iff (bot : Deployment) (w : World) (s : Nat → Input) (members : Membership)
    (event : Event) (operationId : OperationId) (rows : List Registration) (leaders : List BotIdentity)
    (players masters : List String) (hanswers : ∀ n, Answers members (s n))
    (hrun : ((attendance event operationId rows leaders w.users.rows).run storage s w).1 =
      .ok (players, masters)) :
    CreditsMeet bot event rows w.users members leaders players ↔
      NamesAgree bot event rows w.users members leaders := by
  have hdoes : does (Answers members) _ _ (attendance event operationId rows leaders w.users.rows) w :=
    does_attendance event rows
  obtain ⟨-, hplayers, hnamed⟩ := (run_of_does hdoes hanswers).1 _ hrun
  exact credits_meet_iff hplayers hnamed

/-! ## Two names -/

/-- A person who signed up by the VK profile and is in the chat by the Telegram one. -/
def renamedPlayer (fullName : String) : Users :=
  Table.ofList [
    .telegram { tgId := 1, linkedVkId := some 10, telegramHandle := some "@player_one",
                fullName := some fullName },
    .vk { vkId := 10, telegramHandle := some "@player_one", fullName := some "Иванова Анна" }]

def chatGame : Event where
  eventId := "game"
  name := "Игра"
  telegramChatId := some (-100)

def confirmedRow : Registration where
  eventId := "game"
  participantKey := "vk:10:game"
  displayName := "Иванова Анна"
  wishPlay := ""
  attendanceStatus := .confirmed

def oneMember : Membership :=
  fun userId => if userId = 1 then some { status := "member" } else none

def chatInput : Input
  | .getChatMember _ userId _ => some (oneMember userId)
  | c => answering (fun _ _ => .accepted) c

def attends (fullName : String) : Except Failure (List String × List String) :=
  ((attendance chatGame "op" [confirmedRow] [] (renamedPlayer fullName).rows).run storage
    (fun _ => chatInput) { users := renamedPlayer fullName }).1

theorem attends_of_toOption {fullName : String} {names : List String × List String}
    (h : (attends fullName).toOption = some names) : attends fullName = .ok names := by
  cases hattends : attends fullName with
  | ok found =>
    rw [hattends] at h
    exact congrArg Except.ok (Option.some.inj h)
  | error e =>
    rw [hattends] at h
    exact absurd h.symm (Option.some_ne_none names)

/-- Under one name the person is credited once. -/
theorem samePlayer_credited : CreditsMeet sampleBot chatGame [confirmedRow] (renamedPlayer "Иванова Анна")
    oneMember [] ["Иванова Анна", "Иванова Анна"] := by
  have hattends : (attends "Иванова Анна").toOption = some (["Иванова Анна", "Иванова Анна"], []) := by
    decide +kernel
  refine (statistics_credits_iff sampleBot { users := renamedPlayer "Иванова Анна" } (fun _ => chatInput)
    oneMember chatGame "op" [confirmedRow] [] _ [] (fun _ _ _ _ => rfl)
    (attends_of_toOption hattends)).mpr ⟨?_, ?_⟩
  · intro user _ row hrow row' hrow' _ _ _ _
    rw [List.mem_singleton.mp hrow, List.mem_singleton.mp hrow']
    rfl
  · intro telegram fullName hjoins hname row hrow _ _
    have hnames : ∀ telegram ∈ chatPlayers (renamedPlayer "Иванова Анна") oneMember [],
        telegram.fullName = some "Иванова Анна" := by
      decide +kernel
    have hplayer := hnames telegram
      (mem_chatPlayers.mpr ⟨hjoins.stored, hjoins.isPlayer, hjoins.noLeader⟩)
    rw [List.mem_singleton.mp hrow, Option.some.inj (hname.symm.trans hplayer)]
    rfl

/-- Under two names twice. -/
theorem renamedPlayer_credited_twice :
    (attends "Петрова Анна").toOption = some (["Иванова Анна", "Петрова Анна"], []) ∧
    ¬ CreditsMeet sampleBot chatGame [confirmedRow] (renamedPlayer "Петрова Анна") oneMember []
      ["Иванова Анна", "Петрова Анна"] := by
  refine ⟨by decide +kernel, fun h => ?_⟩
  have hplayer : (telegramUsers (renamedPlayer "Петрова Анна")).getD 0 { tgId := 0 } ∈
      chatPlayers (renamedPlayer "Петрова Анна") oneMember [] := by
    decide +kernel
  obtain ⟨hstored, hisPlayer, hnoLeader⟩ := mem_chatPlayers.mp hplayer
  have hagree := (credits_meet_iff (by decide +kernel) (by decide +kernel)).mp h
  have hsame := hagree.inChat _ "Петрова Анна" ⟨rfl, hstored, hisPlayer, hnoLeader⟩ (by decide +kernel)
    confirmedRow (by decide +kernel) rfl
    ⟨(renamedPlayer "Петрова Анна").rows.getD 1 plainPassenger, .inr (by decide +kernel),
      by decide +kernel⟩
  exact absurd hsame (by unfold SameName; decide +kernel)

end LarpBot
