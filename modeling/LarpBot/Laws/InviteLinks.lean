import LarpBot.Application.ChatManagement
import LarpBot.Foundation.Traces
import LarpBot.Laws.EventChanges

/-!
# Invite links and their announcements

An attempt to tie a chat stores the invite link first and hands the announcement to the worker next.
A retry looks at the stored link alone: when there is one, it takes the chat for tied and announces
nothing. So a link is announced as long as no attempt is given up between the two (`links_announced`),
and an attempt that is leaves a link that nobody is ever sent (`link_never_announced`).

Any number of updates, of any masters and for any games, are at work at once, and each may come again
after a failure.
-/

namespace LarpBot

open Atomic

/-! ## Runs -/

/-- A callback in a lane. -/
structure TieJob where
  number : Nat
  update : TelegramGroupUpdate
deriving DecidableEq

@[reducible] def chatStorage : Handler chatPorts World ChatInput := ChatCall.perform

def tieJobs (bot : Deployment) (eventToken : EventId → String) :
    Jobs chatPorts Failure Unit TieJob Nat where
  program job := handleCallback bot eventToken job.update
  group := TieJob.number

abbrev TieRun := Fleet chatPorts Failure Unit TieJob Nat World

/-- The button of the update is one of the game. -/
def TieJob.About (eventToken : EventId → String) (job : TieJob) (eventId : EventId) : Prop :=
  afterPrefix "tie:e:" (job.update.callbackData.getD "") = some (eventToken eventId)

instance (eventToken : EventId → String) (job : TieJob) (eventId : EventId) :
    Decidable (job.About eventToken eventId) :=
  inferInstanceAs (Decidable (_ = _))

/-- The command sends a link to the confirmed players of a game. -/
def Announces (command : OrderedRegistrationCommand) (eventId : EventId) (link : String) : Prop :=
  command.operation = .sendConfirmedNotification ∧ command.eventId = eventId ∧
    command.payload = .notification link

instance (command : OrderedRegistrationCommand) (eventId : EventId) (link : String) :
    Decidable (Announces command eventId link) :=
  inferInstanceAs (Decidable (_ ∧ _))

/-- Such a command has been handed to the worker. -/
def LinkAnnounced (w : World) (eventId : EventId) (link : String) : Prop :=
  ∃ command ∈ w.published, Announces command eventId link

instance (w : World) (eventId : EventId) (link : String) : Decidable (LinkAnnounced w eventId link) :=
  inferInstanceAs (Decidable (∃ command ∈ w.published, _))

/-! ## What an attempt owes -/

/-- An attempt has stored a link of the game. -/
def StoredLink (made : List chatPorts.Entry) (eventId : EventId) (link : String) : Prop :=
  ∃ chatId, ⟨.setTelegramChatInviteLink eventId chatId link, true⟩ ∈ made

/-- An attempt has handed over the announcement of a link. -/
def SentLink (made : List chatPorts.Entry) (eventId : EventId) (link : String) : Prop :=
  ∃ command, Announces command eventId link ∧
    ⟨.port (.outside (.publish command)), some ()⟩ ∈ made

/-- What an attempt has stored for a game it has announced. -/
def SettledFor (made : List chatPorts.Entry) (eventId : EventId) : Prop :=
  ∀ link, StoredLink made eventId link → SentLink made eventId link

/-- One link of the game may still have to be announced. -/
def SettledBut (made : List chatPorts.Entry) (eventId : EventId) (link : String) : Prop :=
  ∀ link', StoredLink made eventId link' → link' = link ∨ SentLink made eventId link'

def AllSettled (made : List chatPorts.Entry) : Prop :=
  ∀ eventId, SettledFor made eventId

/-- The call stores no link. -/
def StoresNoLink : ChatCall → Prop
  | .setTelegramChatInviteLink _ _ _ => False
  | _ => True

section Owing

variable {made : List chatPorts.Entry} {c : ChatCall} {a : c.Ans} {eventId : EventId}
  {link : String}

theorem SentLink.later (h : SentLink made eventId link) :
    SentLink (⟨c, a⟩ :: made) eventId link := by
  obtain ⟨command, hcommand, hmem⟩ := h
  exact ⟨command, hcommand, List.mem_cons_of_mem _ hmem⟩

theorem StoredLink.earlier (h : StoredLink (⟨c, a⟩ :: made) eventId link) (hc : StoresNoLink c) :
    StoredLink made eventId link := by
  obtain ⟨chatId, hmem⟩ := h
  rcases List.mem_cons.mp hmem with heq | hmem
  · obtain ⟨rfl, -⟩ := Sigma.mk.inj_iff.mp heq
    exact hc.elim
  · exact ⟨chatId, hmem⟩

theorem SettledFor.later (h : SettledFor made eventId) (hc : StoresNoLink c) :
    SettledFor (⟨c, a⟩ :: made) eventId := by
  intro link hlink
  exact (h link (hlink.earlier hc)).later

theorem SettledBut.later (h : SettledBut made eventId link) (hc : StoresNoLink c) :
    SettledBut (⟨c, a⟩ :: made) eventId link := by
  intro link' hlink
  exact (h link' (hlink.earlier hc)).imp_right SentLink.later

theorem AllSettled.later (h : AllSettled made) (hc : StoresNoLink c) : AllSettled (⟨c, a⟩ :: made) :=
  fun eventId => (h eventId).later hc

theorem settled_nil : AllSettled [] := by
  rintro eventId link ⟨chatId, hmem⟩
  exact absurd hmem List.not_mem_nil

/-- A link is stored for one game only. -/
theorem SettledFor.stored {eventId' : EventId} {chatId : Int} {stored : Bool}
    (h : SettledFor made eventId) (hne : eventId ≠ eventId') :
    SettledFor (⟨.setTelegramChatInviteLink eventId' chatId link, stored⟩ :: made) eventId := by
  rintro link' ⟨chatId', hmem⟩
  rcases List.mem_cons.mp hmem with heq | hmem
  · obtain ⟨hcall, -⟩ := Sigma.mk.inj_iff.mp heq
    injection hcall with hid
    exact absurd hid hne
  · exact (h link' ⟨chatId', hmem⟩).later

theorem SettledFor.storedBut {chatId : Int} {stored : Bool} (h : SettledFor made eventId) :
    SettledBut (⟨.setTelegramChatInviteLink eventId chatId link, stored⟩ :: made) eventId link := by
  rintro link' ⟨chatId', hmem⟩
  rcases List.mem_cons.mp hmem with heq | hmem
  · obtain ⟨hcall, -⟩ := Sigma.mk.inj_iff.mp heq
    injection hcall with hid hchat hlink
    exact .inl hlink
  · exact .inr (h link' ⟨chatId', hmem⟩).later

theorem SettledBut.settled (h : SettledBut made eventId link) (hsent : SentLink made eventId link) :
    SettledFor made eventId := by
  intro link' hlink
  rcases h link' hlink with rfl | hsent'
  · exact hsent
  · exact hsent'

end Owing

/-! ## What is left of an attempt -/

/-- The games that an update is not about are settled. -/
def Spares (eventToken : EventId → String) (job : TieJob) (made : List chatPorts.Entry) : Prop :=
  ∀ eventId, ¬job.About eventToken eventId → SettledFor made eventId

/-- All that is not settled is one link of one game. -/
def Owes (made : List chatPorts.Entry) (eventId : EventId) (link : String) : Prop :=
  SettledBut made eventId link ∧ ∀ other, other ≠ eventId → SettledFor made other

/-- A program that keeps to the games of an update. -/
def KeepsTied {α : Type} (eventToken : EventId → String) (job : TieJob) (p : ChatAct α)
    (made : List chatPorts.Entry) (Q : List chatPorts.Entry → α → Prop) : Prop :=
  p.Traced (fun _ _ => True) (fun made _ => Spares eventToken job made)
    (fun made _ => Spares eventToken job made) Q made

section Programs

variable {bot : Deployment} {eventToken : EventId → String} {job : TieJob} {α β : Type}
  {made : List chatPorts.Entry} {event : Event} {link : String}

theorem AllSettled.spares (h : AllSettled made) : Spares eventToken job made :=
  fun eventId _ => h eventId

theorem Owes.spares (h : Owes made event.eventId link) (hjob : job.About eventToken event.eventId) :
    Spares eventToken job made := by
  intro eventId hother
  refine h.2 eventId ?_
  rintro rfl
  exact hother hjob

theorem Owes.settled (h : Owes made event.eventId link)
    (hsent : SentLink made event.eventId link) : AllSettled made := by
  intro eventId
  by_cases heq : eventId = event.eventId
  · rw [heq]
    exact h.1.settled hsent
  · exact h.2 eventId heq

theorem Owes.later {c : ChatCall} {a : c.Ans} (h : Owes made event.eventId link)
    (hc : StoresNoLink c) : Owes (⟨c, a⟩ :: made) event.eventId link :=
  ⟨h.1.later hc, fun other hne => (h.2 other hne).later hc⟩

theorem KeepsTied.bind {p : ChatAct α} {f : α → ChatAct β} {Q : List chatPorts.Entry → α → Prop}
    {R : List chatPorts.Entry → β → Prop} (hp : KeepsTied eventToken job p made Q)
    (hf : ∀ made a, Q made a → KeepsTied eventToken job (f a) made R) :
    KeepsTied eventToken job (p.bind f) made R :=
  Prog.Traced.bind hp hf

/-- A program that stores no link leaves the attempt as settled as it was. -/
theorem keeps_of_makes {p : ChatAct α} {R : α → Prop}
    (hp : p.Makes (fun _ _ => True) StoresNoLink R) (hmade : AllSettled made) :
    KeepsTied eventToken job p made fun made a => AllSettled made ∧ R a :=
  (hp.keeps (fun _ _ _ hop _ h => h.later hop) hmade).mono (fun _ _ h => h.1.spares)
    (fun _ _ h => h.spares) fun _ _ h => h

theorem makes_within {A : (op : ChatCall) → op.Ans → Prop} (p : Act α) :
    (ChatAct.within p).Makes A StoresNoLink fun _ => True := by
  induction p with
  | done a => trivial
  | fail e => trivial
  | call op next ih => exact ⟨trivial, fun a _ => ih a⟩

/-- A call that stores no link, and what follows it. -/
theorem makes_chatCall {A : (op : ChatCall) → op.Ans → Prop} {R : α → Prop} {c : ChatCall}
    {f : c.Ans → ChatAct α} (hc : StoresNoLink c) (hf : ∀ a, (f a).Makes A StoresNoLink R) :
    ((ChatAct.one c).bind f).Makes A StoresNoLink R :=
  ⟨hc, fun a _ => hf a⟩

theorem makes_reply {A : (op : ChatCall) → op.Ans → Prop} (answer : Option Unit) :
    (ChatAct.reply answer).Makes A StoresNoLink fun _ => True := by
  cases answer <;> trivial

theorem makes_answerUpdate {A : (op : ChatCall) → op.Ans → Prop} (update : TelegramGroupUpdate)
    (request : String) (text : Option String) :
    (answerUpdate update request text).Makes A StoresNoLink fun _ => True :=
  makes_chatCall trivial makes_reply

theorem makes_deletePicker {A : (op : ChatCall) → op.Ans → Prop} (update : TelegramGroupUpdate) :
    (deletePicker update).Makes A StoresNoLink fun _ => True := by
  unfold deletePicker
  split
  · trivial
  · exact makes_chatCall trivial makes_reply

theorem makes_actorHasChatAdminRight {A : (op : ChatCall) → op.Ans → Prop}
    (update : TelegramGroupUpdate) :
    (actorHasChatAdminRight update).Makes A StoresNoLink fun _ => True := by
  unfold actorHasChatAdminRight
  split
  · trivial
  · refine makes_chatCall trivial fun answer => ?_
    cases answer <;> trivial

theorem makes_showPicker {A : (op : ChatCall) → op.Ans → Prop} (update : TelegramGroupUpdate)
    (events : List Event) :
    (showPicker eventToken update events).Makes A StoresNoLink fun _ => True := by
  unfold showPicker
  cases update.messageId with
  | some messageId => exact makes_chatCall trivial makes_reply
  | none => exact makes_chatCall trivial makes_reply

theorem makes_tieMissing {A : (op : ChatCall) → op.Ans → Prop} (update : TelegramGroupUpdate) :
    (tieMissing bot eventToken update).Makes A StoresNoLink fun _ => True := by
  refine (makes_within _).bind fun found _ => ?_
  obtain ⟨privileged, events⟩ := found
  show Prog.Makes _ _ _ (if !privileged then _ else _)
  split
  · exact makes_answerUpdate _ _ _
  · refine (makes_actorHasChatAdminRight update).bind fun right _ => ?_
    split
    · exact makes_answerUpdate _ _ _
    · exact (makes_answerUpdate _ _ _).bind fun _ _ => makes_showPicker update events

/-- The game that a token names has that token. -/
theorem makes_eventForToken {A : (op : ChatCall) → op.Ans → Prop} (token : String) :
    (eventForToken bot eventToken token).Makes A StoresNoLink fun found =>
      ∀ event, found = some event → eventToken event.eventId = token := by
  refine (makes_within _).bind fun events _ => ?_
  split
  · exact fun event h => nomatch h
  · next event hone =>
    rintro _ ⟨⟩
    have hmem : event ∈ events.filter fun event => eventToken event.eventId = token := by
      rw [hone]
      exact List.mem_singleton_self event
    exact of_decide_eq_true (List.mem_filter.mp hmem).2
  · trivial

/-- The command of an announcement. -/
def announcement (bot : Deployment) (update : TelegramGroupUpdate) (eventId : EventId)
    (userId : Nat) (link : String) : OrderedRegistrationCommand where
  operationId :=
    let idempotencyKey := s!"telegram-chat:{update.updateId}:send-confirmed-link"
    bot.uuid5 s!"larp-bot:{Platform.telegram.value}:{userId}:{idempotencyKey}"
  eventId := eventId
  operation := .sendConfirmedNotification
  platform := .telegram
  platformUserId := userId
  payload := .notification link

theorem enqueue_announcement (update : TelegramGroupUpdate) (userId : Nat) :
    enqueue bot .sendConfirmedNotification event.eventId .telegram userId (.notification link) {}
        s!"telegram-chat:{update.updateId}:send-confirmed-link" none =
      (registeredEvent event.eventId).bind fun _ =>
        (Act.outside (.publish (announcement bot update event.eventId userId link))).bind fun answer =>
          (Act.present "publish" answer).bind fun _ =>
            .done (announcement bot update event.eventId userId link) := by
  rfl

/-- The attempt that has stored a link announces it, or fails. -/
theorem keeps_announceInviteLink (update : TelegramGroupUpdate)
    (hjob : job.About eventToken event.eventId) (hmade : Owes made event.eventId link) :
    KeepsTied eventToken job (announceInviteLink bot update event link) made
      fun made _ => AllSettled made := by
  unfold announceInviteLink
  split
  · exact hmade.spares hjob
  · next userId _ =>
    rw [enqueue_announcement]
    refine ⟨hmade.spares hjob, fun found _ => ?_⟩
    have hread : Owes (⟨.port (.events (.get event.eventId)), found⟩ :: made) event.eventId link :=
      hmade.later trivial
    cases found with
    | none => exact hread.spares hjob
    | some stored =>
      refine ⟨hread.spares hjob, fun answer _ => ?_⟩
      have hsent := hread.later (a := answer) (c := .port (.outside (.publish
        (announcement bot update event.eventId userId link)))) trivial
      cases answer with
      | none => exact hsent.spares hjob
      | some _ =>
        refine hsent.settled ?_
        exact ⟨announcement bot update event.eventId userId link, ⟨rfl, rfl, rfl⟩,
          List.mem_cons_self⟩

/-- The attempt owes nothing, or the announcement of the link that it has just stored. -/
theorem keeps_tieInviteLink (update : TelegramGroupUpdate)
    (hjob : job.About eventToken event.eventId) (hmade : AllSettled made) :
    KeepsTied eventToken job (tieInviteLink update event) made fun made found =>
      match found with
      | none => AllSettled made
      | some (link, true) => Owes made event.eventId link
      | some (_, false) => AllSettled made := by
  have hread {α : Type} {made : List chatPorts.Entry} {f : Option Event → ChatAct α}
      {Q : List chatPorts.Entry → α → Prop} (hspares : Spares eventToken job made)
      (hf : ∀ found, KeepsTied eventToken job (f found)
        (⟨.port (.events (.get event.eventId)), found⟩ :: made) Q) :
      KeepsTied eventToken job ((ChatAct.within (Act.events (.get event.eventId))).bind f) made Q :=
    ⟨hspares, fun found _ => hf found⟩
  refine hread hmade.spares fun bound => ?_
  have hbound : AllSettled (⟨.port (.events (.get event.eventId)), bound⟩ :: made) := hmade.later trivial
  split
  · exact hbound.spares
  · split
    · exact hbound
    · refine ⟨hbound.spares, fun outcome _ => ?_⟩
      have hinvite := hbound.later (a := outcome) (c := .ensurePrimaryInviteLink update.chatId
        s!"telegram-chat:{update.updateId}:invite") trivial
      cases outcome with
      | failed => exact hinvite.spares
      | forbidden => exact hinvite
      | link text =>
        refine ⟨hinvite.spares, fun stored _ => ?_⟩
        have howes : Owes (⟨.setTelegramChatInviteLink event.eventId update.chatId text, stored⟩ ::
            _ :: _ :: made) event.eventId text :=
          ⟨(hinvite event.eventId).storedBut, fun other hne => (hinvite other).stored hne⟩
        refine hread (howes.spares hjob) fun found => ?_
        have hread := howes.later (a := found) (c := .port (.events (.get event.eventId))) trivial
        show KeepsTied eventToken job (if _ then _ else _) _ _
        split
        · exact hread
        · exact hread.spares hjob

theorem keeps_tie (update : TelegramGroupUpdate) (hjob : job.About eventToken event.eventId)
    (hmade : AllSettled made) :
    KeepsTied eventToken job (tie bot update event) made fun made _ => AllSettled made := by
  refine ⟨hmade.spares, fun bound _ => ?_⟩
  have hbound := hmade.later (a := bound)
    (c := .bindTelegramChat event.eventId update.chatId) trivial
  have hanswer {request : String} {text : Option String} {made : List chatPorts.Entry}
      (hmade : AllSettled made) : KeepsTied eventToken job (answerUpdate update request text) made
        fun made _ => AllSettled made :=
    (keeps_of_makes (makes_answerUpdate update request text) hmade).mono (fun _ _ h => h)
      (fun _ _ h => h) fun _ _ h => h.1
  cases bound with
  | false => exact hanswer hbound
  | true =>
    refine (keeps_tieInviteLink update hjob hbound).bind fun made found hfound => ?_
    cases found with
    | none => exact hanswer hfound
    | some pair =>
      obtain ⟨link, created⟩ := pair
      have hannounced : KeepsTied eventToken job
          (ChatAct.whenever created (announceInviteLink bot update event link)) made
          fun made _ => AllSettled made := by
        cases created with
        | true => exact keeps_announceInviteLink update hjob hfound
        | false => exact hfound
      refine hannounced.bind fun made _ hmade => (hanswer hmade).bind fun made _ hmade => ?_
      have hlast : ((deletePicker update).bind fun _ =>
          (ChatAct.one (.sendMessage update.chatId s!"telegram-chat:{update.updateId}:confirmation"
            (tieConfirmation event created) [])).bind ChatAct.reply).Makes
          (fun _ _ => True) StoresNoLink fun _ => True :=
        (makes_deletePicker update).bind fun _ _ => makes_chatCall trivial makes_reply
      exact (keeps_of_makes hlast hmade).mono (fun _ _ h => h) (fun _ _ h => h) fun _ _ h => h.1

theorem keeps_handleCallback (hmade : AllSettled made) :
    KeepsTied eventToken job (handleCallback bot eventToken job.update) made
      fun made _ => AllSettled made := by
  have hquiet {α : Type} {p : ChatAct α} {made : List chatPorts.Entry}
      (hp : p.Makes (fun _ _ => True) StoresNoLink fun _ => True) (hmade : AllSettled made) :
      KeepsTied eventToken job p made fun made _ => AllSettled made :=
    (keeps_of_makes hp hmade).mono (fun _ _ h => h) (fun _ _ h => h) fun _ _ h => h.1
  unfold handleCallback
  cases htoken : afterPrefix "tie:e:" (job.update.callbackData.getD "") with
  | none => exact hmade
  | some token =>
    refine (keeps_of_makes (makes_eventForToken token) hmade).bind fun made found hfound => ?_
    cases found with
    | none => exact hquiet (makes_tieMissing job.update) hfound.1
    | some event =>
      have hjob : job.About eventToken event.eventId := by
        rw [TieJob.About, htoken, hfound.2 event rfl]
      refine (hquiet (makes_within _) hfound.1).bind fun made allowed hmade => ?_
      show KeepsTied eventToken job (if !allowed then _ else _) _ _
      split
      · exact hquiet (makes_answerUpdate _ _ _) hmade
      · refine (hquiet (makes_actorHasChatAdminRight _) hmade).bind fun made right hmade => ?_
        show KeepsTied eventToken job (if !right then _ else _) _ _
        split
        · exact hquiet (makes_answerUpdate _ _ _) hmade
        · exact keeps_tie job.update hjob hmade

end Programs

/-! ## What the calls do -/

/-- Every stored link was stored before, and every command handed over stays so. -/
def KeepsLinks (w w' : World) : Prop :=
  (∀ event ∈ w'.events.rows, ∀ link, event.telegramChatInviteLink = some link →
    ∃ old ∈ w.events.rows, old.eventId = event.eventId ∧ old.telegramChatInviteLink = some link) ∧
  ∀ command ∈ w.published, command ∈ w'.published

theorem KeepsLinks.refl (w : World) : KeepsLinks w w :=
  ⟨fun event hevent _ hlink => ⟨event, hevent, rfl, hlink⟩, fun _ h => h⟩

theorem LinkAnnounced.later {w w' : World} {eventId : EventId} {link : String}
    (h : LinkAnnounced w eventId link) (hw : ∀ command ∈ w.published, command ∈ w'.published) :
    LinkAnnounced w' eventId link := by
  obtain ⟨command, hmem, hcommand⟩ := h
  exact ⟨command, hw command hmem, hcommand⟩

/-- The calls of the worker's ports store no link. -/
theorem keepsLinks_port (c : Call) (i : Input) (w : World) : KeepsLinks w (c.perform i w).2 := by
  cases c with
  | users | listLeaders | registrations | participationNotificationDelivered
  | markParticipationNotificationDelivered => exact .refl w
  | events c =>
    refine ⟨fun event hevent link hlink => ?_, fun _ h => h⟩
    rcases EventCall.mem_perform hevent with hold | ⟨old, hold, -, -, rfl⟩
    · exact ⟨event, hold, rfl, hlink⟩
    · rw [EventCall.telegramChatInviteLink_amend] at hlink
      exact ⟨old, hold, (EventCall.eventId_amend c old).symm, hlink⟩
  | outside c =>
    refine ⟨fun event hevent link hlink => ?_, fun command hcommand => ?_⟩
    · rw [Call.perform, OutsideCall.events_record] at hevent
      exact ⟨event, hevent, rfl, hlink⟩
    · show command ∈ (c.record (i c) w).published
      unfold OutsideCall.record
      split
      · exact hcommand
      · exact hcommand
      · exact List.mem_append_left _ hcommand
      · exact hcommand

/-- Every link after a call is an old one, or the one that the call has stored. -/
theorem keepsLinks_perform (c : ChatCall) (i : ChatInput) (w : World) :
    (∀ event ∈ (c.perform i w).2.events.rows, ∀ link, event.telegramChatInviteLink = some link →
      (∃ old ∈ w.events.rows, old.eventId = event.eventId ∧
        old.telegramChatInviteLink = some link) ∨
      StoredLink [⟨c, (c.perform i w).1⟩] event.eventId link) ∧
    ∀ command ∈ w.published, command ∈ (c.perform i w).2.published := by
  have hkept {c : ChatCall} (h : KeepsLinks w (c.perform i w).2) :
      (∀ event ∈ (c.perform i w).2.events.rows, ∀ link, event.telegramChatInviteLink = some link →
        (∃ old ∈ w.events.rows, old.eventId = event.eventId ∧
          old.telegramChatInviteLink = some link) ∨
        StoredLink [⟨c, (c.perform i w).1⟩] event.eventId link) ∧
      ∀ command ∈ w.published, command ∈ (c.perform i w).2.published :=
    ⟨fun event hevent link hlink => .inl (h.1 event hevent link hlink), h.2⟩
  cases c with
  | port c => exact hkept (keepsLinks_port c i.ports w)
  | getChatMember | ensurePrimaryInviteLink | answerCallback | editMessage | deleteMessage
  | sendMessage => exact hkept (.refl w)
  | bindTelegramChat eventId chatId =>
    refine hkept ⟨fun event hevent link hlink => ?_, fun _ h => h⟩
    have hmem : event ∈ (w.events.bindTelegramChat (i.ports .now) eventId chatId).2.rows := hevent
    unfold Events.bindTelegramChat at hmem
    split at hmem
    · exact ⟨event, hmem, rfl, hlink⟩
    · split at hmem
      · exact ⟨event, hmem, rfl, hlink⟩
      · split at hmem
        · exact ⟨event, hmem, rfl, hlink⟩
        · split at hmem
          · exact ⟨event, hmem, rfl, hlink⟩
          · obtain ⟨old, hold, ⟨-, rfl⟩ | ⟨-, rfl⟩⟩ := Table.mem_modify hmem
            · exact ⟨old, hold, rfl, hlink⟩
            · exact ⟨event, hold, rfl, hlink⟩
  | setTelegramChatInviteLink eventId chatId inviteLink =>
    refine ⟨fun event hevent link hlink => ?_, fun _ h => h⟩
    have hmem : event ∈
      (w.events.setTelegramChatInviteLink (i.ports .now) eventId chatId inviteLink).2.rows := hevent
    by_cases hold : event ∈ w.events.rows
    · exact .inl ⟨event, hold, rfl, hlink⟩
    · right
      have hanswer : (w.events.setTelegramChatInviteLink (i.ports .now) eventId chatId
          inviteLink).1 = true := by
        unfold Events.setTelegramChatInviteLink Events.when at hmem ⊢
        split at hmem
        · exact absurd hmem hold
        · split_ifs at hmem with hfree
          · simp only [hfree, if_true]
          · exact absurd hmem hold
      rcases EventCall.amended_when hmem with hmem | ⟨old, -, rfl, -, rfl⟩
      · exact absurd hmem hold
      · obtain rfl : inviteLink = link := Option.some.inj hlink
        refine ⟨chatId, List.mem_singleton.mpr ?_⟩
        exact congrArg (Sigma.mk (ChatCall.setTelegramChatInviteLink old.eventId chatId inviteLink))
          hanswer.symm

/-- A command that the queue has accepted is handed over. -/
theorem announced_of_sent {c : ChatCall} {i : ChatInput} {w : World} {eventId : EventId}
    {link : String} (h : SentLink [⟨c, (c.perform i w).1⟩] eventId link) :
    LinkAnnounced (c.perform i w).2 eventId link := by
  obtain ⟨command, hcommand, hmem⟩ := h
  obtain ⟨hcall, hanswer⟩ := Sigma.mk.inj_iff.mp (List.mem_singleton.mp hmem)
  subst hcall
  refine ⟨command, ?_, hcommand⟩
  have hanswer : i.ports (.publish command) = some () := (eq_of_heq hanswer).symm
  show command ∈ (OutsideCall.record (.publish command) (i.ports (.publish command)) w).published
  rw [hanswer]
  exact List.mem_append_right _ (List.mem_singleton_self command)

/-! ## Runs -/

/-- No attempt is given up between a link that it has stored and the announcement of that link. The
rest of the world stores no links and takes no commands back. -/
def TiesSettled (bot : Deployment) (eventToken : EventId → String) (s : TieRun) :
    Label TieJob Nat ChatInput World → Prop
  | .abandon g => ∀ job p, s.Working g job p →
      AllSettled (callsSince (tieJobs bot eventToken) g s.history)
  | .outside w => KeepsLinks s.world w
  | _ => True

/-- Every stored link has been announced, or a lane has stored it; and what the lanes have announced
is with the worker. -/
structure LinksKnown (jobs : Jobs chatPorts Failure Unit TieJob Nat)
    (history : List (Record chatPorts Unit TieJob World)) (w : World) : Prop where
  links : ∀ event ∈ w.events.rows, ∀ link, event.telegramChatInviteLink = some link →
    LinkAnnounced w event.eventId link ∨ ∃ g, StoredLink (callsSince jobs g history) event.eventId link
  sent : ∀ g eventId link, SentLink (callsSince jobs g history) eventId link →
    LinkAnnounced w eventId link

section Runs

variable {bot : Deployment} {eventToken : EventId → String}
  {jobs : Jobs chatPorts Failure Unit TieJob Nat} {w w' : World}
  {history : List (Record chatPorts Unit TieJob World)} {s₀ s : TieRun}

theorem LinksKnown.outside (h : LinksKnown jobs history w) (hw : KeepsLinks w w') :
    LinksKnown jobs history w' where
  links event hevent link hlink := by
    obtain ⟨old, hold, hid, hlink⟩ := hw.1 event hevent link hlink
    rw [← hid]
    exact (h.links old hold link hlink).imp_left fun hannounced => hannounced.later hw.2
  sent g eventId link hsent := (h.sent g eventId link hsent).later hw.2

theorem LinksKnown.call (h : LinksKnown jobs history w) (job : TieJob) (c : ChatCall)
    (i : ChatInput) : LinksKnown jobs
      (.called job c w (c.perform i w).1 (c.perform i w).2 :: history) (c.perform i w).2 := by
  obtain ⟨hlinks, hpublished⟩ := keepsLinks_perform c i w
  have hcalls (g : Nat) := callsSince_called jobs history g job c w (c.perform i w).2
    (c.perform i w).1
  constructor
  · intro event hevent link hlink
    rcases hlinks event hevent link hlink with ⟨old, hold, hid, hlink⟩ | ⟨chatId, hmem⟩
    · rw [← hid]
      refine (h.links old hold link hlink).imp (fun hannounced => hannounced.later hpublished) ?_
      rintro ⟨g, chatId, hmem⟩
      refine ⟨g, chatId, ?_⟩
      rcases hcalls g with hsame | ⟨-, hcons⟩
      · rw [hsame]
        exact hmem
      · rw [hcons]
        exact List.mem_cons_of_mem _ hmem
    · refine .inr ⟨jobs.group job, chatId, ?_⟩
      rw [callsSince_own, List.mem_singleton.mp hmem]
      exact List.mem_cons_self
  · intro g eventId link hsent
    rcases hcalls g with hsame | ⟨-, hcons⟩
    · rw [hsame] at hsent
      exact (h.sent g eventId link hsent).later hpublished
    · rw [hcons] at hsent
      obtain ⟨command, hcommand, hmem⟩ := hsent
      rcases List.mem_cons.mp hmem with hown | hold
      · exact announced_of_sent ⟨command, hcommand, List.mem_singleton.mpr hown⟩
      · exact (h.sent g eventId link ⟨command, hcommand, hold⟩).later hpublished

/-- A lane that has finished a job owes nothing. -/
theorem LinksKnown.finish (h : LinksKnown jobs history w) (job : TieJob)
    (hsettled : AllSettled (callsSince jobs (jobs.group job) history)) :
    LinksKnown jobs (.finished job () :: history) w where
  links event hevent link hlink := by
    rcases h.links event hevent link hlink with hannounced | ⟨g, hstored⟩
    · exact .inl hannounced
    · by_cases hg : jobs.group job = g
      · subst hg
        exact .inl (h.sent _ _ _ (hsettled event.eventId link hstored))
      · refine .inr ⟨g, ?_⟩
        rwa [callsSince_of_ne hg]
  sent g eventId link hsent := by
    by_cases hg : jobs.group job = g
    · subst hg
      obtain ⟨command, -, hmem⟩ := hsent
      rw [callsSince, if_pos rfl] at hmem
      exact absurd hmem List.not_mem_nil
    · rw [callsSince_of_ne hg] at hsent
      exact h.sent g eventId link hsent

theorem links_known (hidle : s₀.Idle) (hnew : s₀.history = [])
    (hlinks : ∀ event ∈ s₀.world.events.rows, ∀ link, event.telegramChatInviteLink = some link →
      LinkAnnounced s₀.world event.eventId link)
    (hs : Fleet.Reaches (tieJobs bot eventToken) chatStorage (TiesSettled bot eventToken) s₀ s) :
    LinksKnown (tieJobs bot eventToken) s.history s.world ∧
      s.WholeSettled (tieJobs bot eventToken) (fun _ _ => True) AllSettled
        (fun job made _ => Spares eventToken job made) (fun job made _ => Spares eventToken job made)
        fun _ made _ => AllSettled made := by
  refine hs.settled_rule (A := fun _ _ => True) (Z := AllSettled)
    (T := fun job made _ => Spares eventToken job made)
    (X := fun job made _ => Spares eventToken job made) (Q := fun _ made _ => AllSettled made)
    (LinksKnown (tieJobs bot eventToken)) hidle hnew ?_ settled_nil ?_ ?_ ?_ ?_ ?_ ?_
  · refine ⟨fun event hevent link hlink => .inl (hlinks event hevent link hlink), ?_⟩
    rintro g eventId link ⟨command, -, hmem⟩
    exact absurd hmem List.not_mem_nil
  · exact fun s g job p hC hworking => hC job p hworking
  · exact fun job made hmade => keeps_handleCallback hmade
  · exact fun _ _ _ => trivial
  · exact fun s w hC h => h.outside hC
  · exact fun s g i job c _ _ _ _ h => h.call job c i
  · rintro s g job ⟨⟩ - - rfl hsettled h
    exact h.finish job hsettled

/-- In every run in which no attempt is given up between storing a link and announcing it, a stored
link of a game has been announced whenever no update of that game is at work or waits for another
attempt. -/
theorem links_announced (hidle : s₀.Idle) (hnew : s₀.history = [])
    (hlinks : ∀ event ∈ s₀.world.events.rows, ∀ link, event.telegramChatInviteLink = some link →
      LinkAnnounced s₀.world event.eventId link)
    (hs : Fleet.Reaches (tieJobs bot eventToken) chatStorage (TiesSettled bot eventToken) s₀ s)
    {event : Event} (hevent : event ∈ s.world.events.rows) {link : String}
    (hlink : event.telegramChatInviteLink = some link)
    (hquiet : ∀ g, ∀ job ∈ (s.lanes g).jobs, ¬job.About eventToken event.eventId) :
    LinkAnnounced s.world event.eventId link := by
  obtain ⟨hknown, hlanes⟩ := links_known hidle hnew hlinks hs
  rcases hknown.links event hevent link hlink with hannounced | ⟨g, hstored⟩
  · exact hannounced
  · refine hknown.sent g event.eventId link ?_
    have hlane := hlanes g
    cases hat : s.lanes g with
    | resting waiting =>
      rw [hat] at hlane
      exact hlane.1 event.eventId link hstored
    | working job p rest =>
      rw [hat] at hlane
      have hother : ¬job.About eventToken event.eventId := by
        refine hquiet g job ?_
        rw [hat]
        exact List.mem_cons_self
      have hspares : Spares eventToken job (callsSince (tieJobs bot eventToken) g s.history) := by
        cases p with
        | done a => exact (hlane.1 : AllSettled _).spares
        | fail e => exact hlane.1
        | call c next => exact hlane.1.1
      exact hspares event.eventId hother link hstored

end Runs

/-! ### An attempt fails between the link and its announcement -/

section Samples

def tieBot : Deployment where
  participantKey platform userId eventId := s!"{platform.value}:{userId}:{eventId}"
  uuid5 := id
  casefold := id

def tieUpdate : TelegramGroupUpdate where
  updateId := "2"
  chatId := -1001
  actorUserId := some 42
  messageId := some 77
  callbackQueryId := some "callback"
  callbackData := some "tie:e:game"

def tieJob : TieJob := ⟨0, tieUpdate⟩

/-- Every service answers. -/
def tiePorts : Input
  | .now => 5
  | .isAdmin _ _ | .passTableExists _ => some false
  | .send _ _ _ _ _ => .accepted
  | .kickMember _ _ _ => some true
  | .readLegacyRegistrations _ => some []
  | .createPublicEventWorkbook _ _ _ _ | .createPassTable _ _ | .replace _ _ _
  | .getChatMember _ _ _ | .resolveUserId _ => some none
  | .deleteEventWorkbook _ | .replacePassTable _ _ | .deletePassTable _
  | .deleteAchievementPresentation _ | .publish _ => some ()
  | .prepareStatistics _ _ _ _ | .commitStatistics _ _ | .hasAnyPlayer _ => .ok false
  | .linkStatistics _ => .ok ""

def tieInput : ChatInput where
  ports := tiePorts
  member := some (some { status := "creator" })
  invite := .link "https://t.me/+chat1001"
  reply := some ()

def tieStart : TieRun where
  world :=
    { events := .ofList [{ eventId := "game", name := "Игра" }]
      leaders := .ofList [("game", ⟨.telegram, 42⟩)] }

/-- The chat is tied at the first attempt. -/
def tieAtOnce : List (Label TieJob Nat ChatInput World) :=
  .publish tieJob :: Fleet.attempt 0 15 tieInput (.finish 0)

/-- The first attempt fails when it has stored the link, and the update comes again. -/
def tieBroken : List (Label TieJob Nat ChatInput World) :=
  .publish tieJob :: (Fleet.attempt 0 10 tieInput (.abandon 0) ++
    Fleet.attempt 0 10 tieInput (.finish 0))

def tieAfter (schedule : List (Label TieJob Nat ChatInput World)) : TieRun :=
  tieStart.play (tieJobs tieBot id) chatStorage schedule

theorem link_announced_atOnce :
    ((tieAfter tieAtOnce).world.events.get "game").bind Event.telegramChatInviteLink =
        some "https://t.me/+chat1001" ∧
      LinkAnnounced (tieAfter tieAtOnce).world "game" "https://t.me/+chat1001" := by
  have hrun : Fleet.Reaches (tieJobs tieBot id) chatStorage (TiesSettled tieBot id) tieStart
      (tieAfter tieAtOnce) := by
    refine Fleet.Reaches.refl.play fun s l hl => ?_
    simp only [tieAtOnce, Fleet.attempt, List.mem_cons, List.mem_append, List.mem_replicate,
      List.not_mem_nil, or_false] at hl
    rcases hl with rfl | rfl | ⟨-, rfl⟩ | rfl <;> trivial
  have hstored : ∃ event ∈ (tieAfter tieAtOnce).world.events.rows, event.eventId = "game" ∧
      event.telegramChatInviteLink = some "https://t.me/+chat1001" := by
    decide +kernel
  have hempty : ∀ event ∈ tieStart.world.events.rows, event.telegramChatInviteLink = none := by
    decide +kernel
  refine ⟨by decide +kernel, ?_⟩
  obtain ⟨event, hevent, hid, hlink⟩ := hstored
  rw [← hid]
  refine links_announced (fun _ => rfl) rfl (fun event hevent link hlink => ?_) hrun hevent hlink ?_
  · rw [hempty event hevent] at hlink
    exact nomatch hlink
  · rintro (_ | g) job hjob
    · have hdone : ((tieAfter tieAtOnce).lanes 0).jobs = [] := by decide +kernel
      rw [hdone] at hjob
      exact absurd hjob List.not_mem_nil
    · exact absurd hjob List.not_mem_nil

/-- The retry says that the chat is tied already and that the link is not sent again; no link was
ever sent, and no update is left. -/
theorem link_never_announced :
    Fleet.Reaches (tieJobs tieBot id) chatStorage (fun _ _ => True) tieStart (tieAfter tieBroken) ∧
      ((tieAfter tieBroken).lanes 0).jobs = [] ∧
      ((tieAfter tieBroken).world.events.get "game").bind Event.telegramChatInviteLink =
        some "https://t.me/+chat1001" ∧
      (tieAfter tieBroken).world.published = [] ∧
      ((tieAfter tieBroken).history.any fun record => match record with
        | .called _ (.sendMessage _ _ text _) _ _ _ =>
          text = "Этот чат уже привязан к игре Игра. Ссылка повторно не отправлена."
        | _ => false) = true := by
  refine ⟨Fleet.Reaches.refl.play fun _ _ _ => trivial, ?_⟩
  decide +kernel

end Samples

end LarpBot
