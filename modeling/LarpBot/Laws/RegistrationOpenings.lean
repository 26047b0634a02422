import LarpBot.Laws.OpeningNotices

/-!
# Openings that stay pending

A tick of the lifecycle scheduler in which nothing fails for a passing reason. VK tells a recipient
who cannot be reached from a failure by its error code, and the scheduler stores the key as if the
notice had been sent. Telegram answers such a recipient like any other failed request, and the opening
stays pending: it is settled exactly where no Telegram recipient who is pending refuses
(`openings_settle`), and otherwise every further tick tries again (`pending_for_blocker`).

A tick takes up at most one hundred openings, and completes those before the date of the backlog
without a notice; `SettlesOpening` says so.
-/

namespace LarpBot

open Atomic

/-! ## Ticks without transient failures -/

/-- The descriptions with which Telegram refuses a recipient for good. -/
def telegramUnreachableDescriptions : List String :=
  ["bot was blocked by the user", "chat not found", "user is deactivated"]

/-- Telegram refuses the recipient for good. -/
def HttpAnswer.Refuses (answer : HttpAnswer TelegramReply) : Prop :=
  ∃ status reply, answer = .answered status (some reply) ∧ reply.ok = false ∧
    ∃ text ∈ telegramUnreachableDescriptions, text.toList <:+: reply.description.toList

/-- Nothing fails but what is refused for good: the table and the queue serve, and the messengers
accept all other notices. VK may ask for a text without a keyboard. -/
structure NoneTransient (refuses : BotIdentity → Bool) (recipients : List BotIdentity)
    (i : LifecycleInput) : Prop where
  storage : i.storage = .served
  recipients : i.recipients = some recipients
  publish : i.publish = some ()
  telegram : ∀ notice, if refuses notice.recipient then (i.telegram notice).Refuses
    else telegramAccepts (i.telegram notice) = true
  vk : ∀ request, ∃ reply, (i.vk request).body = some reply ∧
    (request.keyboard.isSome ∧ reply.errorCode = some 912 ∨
      if refuses request.notice.recipient then
        reply.errorCode = some 901 ∨ reply.errorCode = some 902
      else reply.errorCode = none)

variable {refuses : BotIdentity → Bool} {recipients : List BotIdentity} {i : LifecycleInput}
  {w w' w'' : LifecycleWorld} {eventId : EventId} {payload : Event}

theorem HttpAnswer.Refuses.not_accepts {answer : HttpAnswer TelegramReply} (h : answer.Refuses) :
    telegramAccepts answer = false := by
  obtain ⟨status, reply, rfl, hrefused, -⟩ := h
  rw [telegramAccepts, HttpAnswer.body]
  split
  · exact hrefused
  · rfl

/-- A tick that nobody disturbs. -/
abbrev aloneTick (refuses : BotIdentity → Bool) (recipients : List BotIdentity) :
    Surround LifecycleWorld LifecycleInput :=
  .alone (NoneTransient refuses recipients)

/-- What is told by `wp` of a program of the scheduler that nobody disturbs: it returns, in `Q`. -/
abbrev Returns {α : Type} (refuses : BotIdentity → Bool) (recipients : List BotIdentity)
    (p : LifecycleAct α) (w : LifecycleWorld) (Q : α → LifecycleWorld → Prop) : Prop :=
  wp lifecycleHandler (aloneTick refuses recipients) (fun _ _ _ => True) Q (fun _ _ => False) p w

theorem Returns.mono {α : Type} {p : LifecycleAct α} {Q Q' : α → LifecycleWorld → Prop}
    (h : Returns refuses recipients p w Q) (hQ : ∀ a w, Q a w → Q' a w) :
    Returns refuses recipients p w Q' :=
  wp_mono h hQ fun _ _ h => h

theorem Returns.bind {α β : Type} {p : LifecycleAct α} {f : α → LifecycleAct β}
    {Q : α → LifecycleWorld → Prop} {Q' : β → LifecycleWorld → Prop}
    (h : Returns refuses recipients p w Q)
    (hf : ∀ a w', Q a w' → Returns refuses recipients (f a) w' Q') :
    Returns refuses recipients (p.bind f) w Q' :=
  wp_bind.mpr (h.mono hf)

theorem returns_call {α : Type} {c : LifecycleCall} {next : c.Ans → LifecycleAct α}
    {Q : α → LifecycleWorld → Prop}
    (h : ∀ i, NoneTransient refuses recipients i →
      Returns refuses recipients (next (c.perform i w).1) (c.perform i w).2 Q) :
    Returns refuses recipients (.call c next) w Q := by
  rintro _ rfl i hi
  exact ⟨trivial, h i hi⟩

/-! ### Rows -/

/-- One row is rewritten. -/
structure Rewrites (eventId : EventId) (payload : Event) (w w' : LifecycleWorld) : Prop where
  stored : ∀ other, w'.stored other = if other = eventId then some payload else w.stored other
  ids : w'.items.payloads.map Event.eventId = w.items.payloads.map Event.eventId
  delivered : w'.delivered = w.delivered

theorem Rewrites.refl (h : w.stored eventId = some payload) : Rewrites eventId payload w w := by
  refine ⟨fun other => ?_, rfl, rfl⟩
  split
  · next hid => rw [hid, h]
  · rfl

theorem returns_mutateEvent {keys : List String} {f : Event → Option Event} (hf : AddsKeys keys f)
    (hstored : w.stored eventId = some payload) (attempts : Nat) :
    Returns refuses recipients (mutateEvent eventId f (attempts + 1)) w fun changed w' =>
      changed = (f payload).isSome ∧ Rewrites eventId ((f payload).getD payload) w w' := by
  obtain ⟨⟨revision, payload⟩, hrow, rfl⟩ := Option.map_eq_some_iff.mp hstored
  have hid : payload.eventId = eventId := (EventItems.find?_of_row hrow).2
  refine returns_call fun i hi => ?_
  show Returns _ _ (Prog.bind (LifecycleAct.present _ (if i.storage = .served then _ else _)) _) w _
  rw [if_pos hi.storage, hrow]
  dsimp only [Prog.bind_eq, Prog.done_bind, LifecycleAct.present]
  cases hmutation : f payload with
  | none => exact ⟨rfl, .refl hstored⟩
  | some payload' =>
    obtain ⟨hsame, -⟩ := hf payload payload' hmutation
    rw [← hid, ← hsame] at hrow
    obtain ⟨hwritten, hrows, hids⟩ := EventItems.update_of_row hrow
    refine returns_call fun j hj => ?_
    have hperform : LifecycleCall.perform (.updateItem revision payload') j w =
        (.written, { w with items := (w.items.update revision payload').2 }) := by
      simp only [LifecycleCall.perform, hj.storage, hwritten]
    dsimp only [Prog.bind_eq, Prog.done_bind]
    rw [hperform]
    refine ⟨rfl, fun other => ?_, hids, rfl⟩
    rw [LifecycleWorld.stored, hrows, hsame, hid]
    split <;> rfl

/-- What is done for one event: the others are as before, and their notices too. -/
structure Touches (eventId : EventId) (w w' : LifecycleWorld) : Prop where
  stored : ∀ other, other ≠ eventId → w'.stored other = w.stored other
  sent : ∀ other, other ≠ eventId → ∀ recipient, w'.Sent other recipient → w.Sent other recipient
  delivered : w.delivered ⊆ w'.delivered

namespace Touches

theorem refl (w : LifecycleWorld) : Touches eventId w w :=
  ⟨fun _ _ => rfl, fun _ _ _ hsent => hsent, List.Subset.refl _⟩

theorem trans (h : Touches eventId w w') (h' : Touches eventId w' w'') : Touches eventId w w'' where
  stored other hother := (h'.stored other hother).trans (h.stored other hother)
  sent other hother recipient hsent := h.sent other hother recipient (h'.sent other hother _ hsent)
  delivered := List.Subset.trans h.delivered h'.delivered

theorem of_rewrites (h : Rewrites eventId payload w w') : Touches eventId w w' where
  stored other hother := (h.stored other).trans (if_neg hother)
  sent other hother recipient hsent := by
    rw [LifecycleWorld.Sent, ← h.delivered]
    exact hsent
  delivered := by rw [h.delivered]; exact List.Subset.refl _

end Touches

/-- A call that sends a notice of the event leaves the table alone. -/
theorem touches_of_notice {c : LifecycleCall} {notice : OpeningNotice} (hnotice : c.notice = some notice)
    (hid : notice.eventId = eventId) (i : LifecycleInput) (w : LifecycleWorld) :
    Touches eventId w (c.perform i w).2 ∧ (c.perform i w).2.stored eventId = w.stored eventId := by
  have hupdates (other : EventId) : c.updates ≠ some other := by
    cases c with
    | updateItem revision payload => exact nomatch hnotice
    | _ => exact nofun
  refine ⟨⟨fun other _ => c.stored_perform_of_ne (hupdates other) i w, ?_,
    c.subset_delivered_perform i w⟩, c.stored_perform_of_ne (hupdates eventId) i w⟩
  rintro other hother recipient ⟨sent, hmem, hfor, hto⟩
  rcases c.delivered_perform i w with hsame | ⟨asked, hasked, hadded⟩
  · rw [hsame] at hmem
    exact ⟨sent, hmem, hfor, hto⟩
  · rw [hadded] at hmem
    rcases List.mem_append.mp hmem with hold | hnew
    · exact ⟨sent, hold, hfor, hto⟩
    · rw [hnotice] at hasked
      obtain rfl := Option.some.inj hasked
      rw [List.mem_singleton.mp hnew, hid] at hfor
      exact absurd hfor.symm hother

/-! ### Deliveries -/

/-- Refuses for good, and the scheduler takes it for a failure. -/
def RefusesOnTelegram (refuses : BotIdentity → Bool) (recipient : BotIdentity) : Bool :=
  recipient.platform = .telegram && refuses recipient

/-- One delivery: it is made for those who do not refuse. -/
structure Delivered (refuses : BotIdentity → Bool) (eventId : EventId) (recipient : BotIdentity)
    (w w' : LifecycleWorld) : Prop where
  touches : Touches eventId w w'
  stored : w'.stored eventId = w.stored eventId
  sent : refuses recipient = false → w'.Sent eventId recipient

variable {notice : OpeningNotice} {recipient : BotIdentity} {scheduler : Scheduler}
  {event : PlannedEvent} {now cutoff : Nanos}

theorem returns_postVK (request : VkRequest) (hid : request.notice.eventId = eventId) :
    Returns refuses recipients (postVK request) w fun reply w' =>
      Touches eventId w w' ∧ w'.stored eventId = w.stored eventId ∧
        (reply.errorCode = none → w'.Sent eventId request.notice.recipient) ∧
        (request.keyboard.isSome ∧ reply.errorCode = some 912 ∨
          if refuses request.notice.recipient then
            reply.errorCode = some 901 ∨ reply.errorCode = some 902
          else reply.errorCode = none) := by
  refine returns_call fun i hi => ?_
  obtain ⟨reply, hbody, hcode⟩ := hi.vk request
  obtain ⟨htouches, hstored⟩ := touches_of_notice (c := .postVK request) rfl hid i w
  show Returns _ _ (LifecycleAct.present _ (i.vk request).body) _ _
  rw [hbody]
  refine ⟨htouches, hstored, fun hnone => ⟨request.notice, ?_, hid, rfl⟩, hcode⟩
  have haccepts : vkAccepts (i.vk request) = true := by
    rw [vkAccepts, hbody]
    simp [hnone]
  rw [LifecycleCall.delivered_postVK haccepts]
  exact List.mem_append_right _ List.mem_cons_self

theorem returns_sendVK (hid : notice.eventId = eventId) :
    Returns refuses recipients (sendVK true notice) w fun _ w' =>
      Delivered refuses eventId notice.recipient w w' := by
  have hends {reply : VkReply} {w₂ : LifecycleWorld} (htouches : Touches eventId w w₂)
      (hstored : w₂.stored eventId = w.stored eventId)
      (hsent : reply.errorCode = none → w₂.Sent eventId notice.recipient)
      (hcode : if refuses notice.recipient then
        reply.errorCode = some 901 ∨ reply.errorCode = some 902 else reply.errorCode = none) :
      Returns refuses recipients (settleVK true reply) w₂ fun _ w' =>
        Delivered refuses eventId notice.recipient w w' := by
    unfold settleVK
    cases hrefuses : refuses notice.recipient with
    | false =>
      rw [hrefuses] at hcode
      have hnone : reply.errorCode = none := by simpa using hcode
      rw [hnone]
      exact ⟨htouches, hstored, fun _ => hsent hnone⟩
    | true =>
      rw [if_pos hrefuses] at hcode
      have hdelivered : Delivered refuses eventId notice.recipient w w₂ :=
        ⟨htouches, hstored, fun haccepts => absurd (hrefuses.symm.trans haccepts) nofun⟩
      rcases hcode with hcode | hcode
      · rw [hcode]
        exact hdelivered
      · rw [hcode]
        exact hdelivered
  refine Returns.bind (returns_postVK ⟨notice, notice.text, some notice.buttons⟩ hid) ?_
  rintro reply w₁ ⟨htouches, hstored, hsent, hcode⟩
  by_cases hkeyboard : reply.errorCode = some 912
  · refine Returns.bind (Q := fun reply w₂ => Touches eventId w w₂ ∧
      w₂.stored eventId = w.stored eventId ∧
      (reply.errorCode = none → w₂.Sent eventId notice.recipient) ∧
      if refuses notice.recipient then
        reply.errorCode = some 901 ∨ reply.errorCode = some 902 else reply.errorCode = none) ?_ ?_
    · rw [if_pos hkeyboard]
      refine (returns_postVK ⟨notice, notice.textKeyboard, none⟩ hid).mono ?_
      rintro reply w₂ ⟨htouches', hstored', hsent', hcode'⟩
      refine ⟨htouches.trans htouches', hstored'.trans hstored, hsent', ?_⟩
      exact hcode'.resolve_left fun h => absurd h.1 nofun
    · rintro reply w₂ ⟨htouches', hstored', hsent', hcode'⟩
      exact hends htouches' hstored' hsent' hcode'
  · rw [if_neg hkeyboard]
    exact hends htouches hstored hsent (hcode.resolve_left fun h => hkeyboard h.2)

theorem returns_deliverOpening (hid : event.eventId = eventId)
    (hskip : scheduler.skipUnreachableVKRecipients = true) (hplatform : recipient.platform ≠ .system) :
    Returns refuses recipients (deliverOpening scheduler event recipient) w fun outcome w' =>
      outcome = (recipient, !RefusesOnTelegram refuses recipient) ∧
        Delivered refuses eventId recipient w w' := by
  have hnotice : (openingNotice event recipient).eventId = eventId := hid
  show wp _ _ _ _ _ (Prog.catching _ _) _
  rw [wp_catching, wp_bind]
  rw [sendRegistrationOpening]
  cases hon : recipient.platform with
  | system => exact absurd hon hplatform
  | vk =>
    have hfails : RefusesOnTelegram refuses recipient = false := by simp [RefusesOnTelegram, hon]
    rw [hskip]
    refine wp_mono (returns_sendVK hnotice) ?_ fun _ _ h => h.elim
    exact fun _ _ hdelivered => ⟨by rw [hfails]; rfl, hdelivered⟩
  | telegram =>
    have hrefused : RefusesOnTelegram refuses recipient = refuses recipient := by
      simp [RefusesOnTelegram, hon]
    rw [hrefused]
    intro w₁ hw₁ i hi
    obtain rfl : w₁ = w := hw₁
    refine ⟨trivial, ?_⟩
    obtain ⟨htouches, hstored⟩ :=
      touches_of_notice (c := .sendTelegram (openingNotice event recipient)) rfl hnotice i w₁
    have htelegram := hi.telegram (openingNotice event recipient)
    rw [show (openingNotice event recipient).recipient = recipient from rfl] at htelegram
    change wp _ _ _ _ _
      (Prog.bind (LifecycleAct.present _ (i.telegram (openingNotice event recipient)).body) _) _
    cases hrefuses : refuses recipient with
    | true =>
      rw [if_pos hrefuses] at htelegram
      have hfailed : (recipient, false) = (recipient, !true) ∧ Delivered refuses eventId recipient w₁
          (LifecycleCall.perform (.sendTelegram (openingNotice event recipient)) i w₁).2 :=
        ⟨rfl, htouches, hstored, fun haccepts => absurd (hrefuses.symm.trans haccepts) (by simp)⟩
      have hrejected := htelegram.not_accepts
      rw [telegramAccepts] at hrejected
      cases hbody : (i.telegram (openingNotice event recipient)).body with
      | none => exact hfailed
      | some reply =>
        rw [hbody, Option.any_some] at hrejected
        show wp _ _ _ _ _ (if reply.ok = true then _ else _) _
        rw [hrejected]
        exact hfailed
    | false =>
      rw [hrefuses] at htelegram
      have haccepts : telegramAccepts (i.telegram (openingNotice event recipient)) = true := by
        simpa using htelegram
      have hsent : (LifecycleCall.perform (.sendTelegram (openingNotice event recipient)) i w₁).2.Sent
          eventId recipient := by
        refine ⟨openingNotice event recipient, ?_, hnotice, rfl⟩
        rw [LifecycleCall.delivered_sendTelegram haccepts]
        exact List.mem_append_right _ List.mem_cons_self
      rw [telegramAccepts] at haccepts
      obtain ⟨reply, hbody, hok⟩ := (Option.any_eq_true _ _).mp haccepts
      rw [hbody]
      show wp _ _ _ _ _ (if reply.ok = true then _ else _) _
      rw [if_pos hok]
      exact ⟨rfl, htouches, hstored, fun _ => hsent⟩

/-! ### The notices of one opening -/

theorem returns_recordDeliveries {outcomes : List (BotIdentity × Bool)} {notified : List String}
    (hstored : w.stored eventId = some payload)
    (hpending : payload.registrationOpenNotificationCompletedAt = none) :
    Returns refuses recipients (recordDeliveries eventId now outcomes notified) w fun keys w' =>
      keys = notified ++ (outcomes.filter Prod.snd).map (·.1.key) ∧ Touches eventId w w' ∧
        ∃ payload', w'.stored eventId = some payload' ∧
          payload'.registrationOpenNotificationCompletedAt = none := by
  induction outcomes generalizing notified payload w with
  | nil => exact ⟨by simp, .refl w, payload, hstored, hpending⟩
  | cons outcome outcomes ih =>
    obtain ⟨recipient, delivered⟩ := outcome
    cases delivered with
    | false => exact ih hstored hpending
    | true =>
      have hmarked : ∀ recipients, ((markRegistrationDelivered recipients now payload).getD
          payload).registrationOpenNotificationCompletedAt = none := by
        intro recipients
        simp [markRegistrationDelivered, hpending]
      refine Returns.bind (returns_mutateEvent (adds_markRegistrationDelivered _ now) hstored 3) ?_
      rintro _ w₁ ⟨-, hrewrites⟩
      have hnow := hrewrites.stored eventId
      rw [if_pos rfl] at hnow
      refine (ih hnow (hmarked _)).mono ?_
      rintro keys w₂ ⟨rfl, htouches, hafter⟩
      refine ⟨by simp, .trans (.of_rewrites hrewrites) htouches, hafter⟩

/-- The notices of an event have been sent, from the keys that were stored before. -/
structure NoticesSent (refuses : BotIdentity → Bool) (recipients : List BotIdentity)
    (eventId : EventId) (keys : List String) (w : LifecycleWorld) : Prop where
  sent : ∀ recipient ∈ recipients, recipient.key ∉ keys → refuses recipient = false →
    w.Sent eventId recipient
  completed : ∃ payload, w.stored eventId = some payload ∧
    (payload.registrationOpenNotificationCompletedAt.isSome ↔
      ∀ recipient ∈ recipients, RefusesOnTelegram refuses recipient = true → recipient.key ∈ keys)

theorem NoticesSent.later {keys : List String} (h : NoticesSent refuses recipients eventId keys w)
    (hstored : w'.stored eventId = w.stored eventId) (hdelivered : w.delivered ⊆ w'.delivered) :
    NoticesSent refuses recipients eventId keys w' where
  sent recipient hrecipient hkey haccepts :=
    (h.sent recipient hrecipient hkey haccepts).mono hdelivered
  completed := by rw [hstored]; exact h.completed

/-- All keys are there, if no one who refuses is pending. -/
theorem allNotified_iff {keys : List String} :
    allNotified (keys ++ (((recipients.filter (·.key ∉ keys)).map fun recipient =>
        (recipient, !RefusesOnTelegram refuses recipient)).filter Prod.snd).map (·.1.key))
      recipients = true ↔
      ∀ recipient ∈ recipients, RefusesOnTelegram refuses recipient = true →
        recipient.key ∈ keys := by
  rw [allNotified, List.all_eq_true]
  refine forall₂_congr fun recipient hrecipient => ?_
  rw [decide_eq_true_eq, List.mem_append]
  constructor
  · intro h hrefuses
    refine h.resolve_right fun hnew => ?_
    obtain ⟨outcome, houtcome, hkey⟩ := List.mem_map.mp hnew
    obtain ⟨houtcome, hdelivered⟩ := List.mem_filter.mp houtcome
    obtain ⟨other, -, rfl⟩ := List.mem_map.mp houtcome
    have hsame : other = recipient := BotIdentity.key_injective hkey
    rw [hsame, hrefuses] at hdelivered
    exact nomatch hdelivered
  · intro h
    by_cases hkey : recipient.key ∈ keys
    · exact .inl hkey
    · have haccepts : RefusesOnTelegram refuses recipient = false :=
        Bool.eq_false_iff.mpr fun hrefuses => hkey (h hrefuses)
      refine .inr (List.mem_map.mpr ⟨(recipient, true), List.mem_filter.mpr ⟨?_, rfl⟩, rfl⟩)
      refine List.mem_map.mpr ⟨recipient, List.mem_filter.mpr ⟨hrecipient, by simpa using hkey⟩, ?_⟩
      rw [haccepts]
      rfl

theorem returns_announceOpening (hid : event.eventId = eventId)
    (hskip : scheduler.skipUnreachableVKRecipients = true)
    (hplatforms : ∀ recipient ∈ recipients, recipient.platform ≠ .system)
    (hstored : w.stored eventId = some payload)
    (hpending : payload.registrationOpenNotificationCompletedAt = none) :
    Returns refuses recipients (announceOpening scheduler event recipients now) w fun _ w' =>
      Touches eventId w w' ∧
        NoticesSent refuses recipients eventId event.registrationRecipients w' := by
  have hdeliveries : Returns refuses recipients (Prog.traverse (deliverOpening scheduler event)
      (recipients.filter (·.key ∉ event.registrationRecipients))) w fun outcomes w₁ =>
        outcomes = (recipients.filter (·.key ∉ event.registrationRecipients)).map
            (fun recipient => (recipient, !RefusesOnTelegram refuses recipient)) ∧
          Touches eventId w w₁ ∧ w₁.stored eventId = w.stored eventId ∧
          ∀ recipient ∈ recipients.filter (·.key ∉ event.registrationRecipients),
            refuses recipient = false → w₁.Sent eventId recipient := by
    refine wp_traverse_all (P := fun seen outcomes w₁ => outcomes = seen.map
        (fun recipient => (recipient, !RefusesOnTelegram refuses recipient)) ∧
      Touches eventId w w₁ ∧ w₁.stored eventId = w.stored eventId ∧
      ∀ recipient ∈ seen, refuses recipient = false → w₁.Sent eventId recipient)
      ?_ ⟨rfl, .refl w, rfl, fun _ hmem => absurd hmem List.not_mem_nil⟩
    rintro seen outcomes recipient hrecipient w₁ ⟨rfl, htouches, hsame, hsent⟩
    have hplatform := hplatforms recipient (List.mem_filter.mp hrecipient).1
    refine (returns_deliverOpening hid hskip hplatform).mono ?_
    rintro outcome w₂ ⟨rfl, hdelivered⟩
    refine ⟨by simp, htouches.trans hdelivered.touches, hdelivered.stored.trans hsame, ?_⟩
    intro other hother haccepts
    rcases List.mem_append.mp hother with hold | hnew
    · exact (hsent other hold haccepts).mono hdelivered.touches.delivered
    · obtain rfl := List.mem_singleton.mp hnew
      exact hdelivered.sent haccepts
  refine Returns.bind hdeliveries ?_
  rintro outcomes w₁ ⟨rfl, htouches₁, hsame, hsent⟩
  rw [hid]
  refine Returns.bind (returns_recordDeliveries (hsame.trans hstored) hpending) ?_
  rintro notified w₂ ⟨rfl, htouches₂, payload₂, hstored₂, hpending₂⟩
  have hall {w₃ : LifecycleWorld} (htouches₃ : Touches eventId w₂ w₃) : ∀ recipient ∈ recipients,
      recipient.key ∉ event.registrationRecipients → refuses recipient = false →
        w₃.Sent eventId recipient := by
    intro recipient hrecipient hkey haccepts
    have hlast := hsent recipient (List.mem_filter.mpr ⟨hrecipient, by simpa using hkey⟩) haccepts
    exact hlast.mono (htouches₂.trans htouches₃).delivered
  split
  · next hnotified =>
    refine Returns.bind (returns_mutateEvent (adds_completeRegistration now) hstored₂ 3) ?_
    rintro _ w₃ ⟨-, hrewrites⟩
    have htouches₃ := Touches.of_rewrites hrewrites
    refine ⟨(htouches₁.trans htouches₂).trans htouches₃, hall htouches₃, _,
      (hrewrites.stored eventId).trans (if_pos rfl), ?_⟩
    rw [iff_true_right (allNotified_iff.mp hnotified)]
    simp [completeRegistration, hpending₂]
  · next hmissing =>
    refine ⟨htouches₁.trans htouches₂, hall (.refl w₂), payload₂, hstored₂, ?_⟩
    rw [iff_false_right fun h => hmissing (allNotified_iff.mpr h), hpending₂]
    exact fun h => by cases h

/-! ### The openings of one tick -/

/-- A planned event is one that is stored. -/
def PlannedEvent.Stored (event : PlannedEvent) (w : LifecycleWorld) : Prop :=
  ∃ payload, w.stored event.eventId = some payload ∧ plannedEvent payload = event

theorem registrationDue_plannedEvent (h : (plannedEvent payload).registrationDue cutoff = true) :
    payload.registrationOpenNotificationCompletedAt = none ∧ payload.archivedAt = none ∧
      payload.status ≠ .closed := by
  simp only [PlannedEvent.registrationDue, plannedEvent, Bool.and_eq_true, Option.isNone_iff_eq_none,
    Option.map_eq_none_iff] at h
  exact ⟨h.1.1.2, h.1.2, of_decide_eq_true h.2⟩

theorem returns_openImminent (hid : event.eventId = eventId) (hstored : event.Stored w)
    (hdue : event.registrationDue cutoff = true) :
    Returns refuses recipients (openImminent event now) w fun opened w' =>
      opened = true ∧ Touches eventId w w' ∧ ∃ payload, w'.stored eventId = some payload ∧
        payload.registrationOpenNotificationCompletedAt = none := by
  obtain ⟨payload, hstored, rfl⟩ := hstored
  obtain ⟨hpending, harchived, hopen⟩ := registrationDue_plannedEvent hdue
  rw [hid] at hstored
  rw [openImminent]
  split
  · exact ⟨rfl, .refl w, payload, hstored, hpending⟩
  · next opensAt hopensAt =>
    split
    · next hlater =>
      have hmutation : openRegistrationNow opensAt now payload = some { payload with
          registrationOpenAt := some (micros now), updatedAt := micros now } :=
        if_pos ⟨hopensAt, hlater, hpending, harchived, hopen⟩
      rw [hid]
      refine Returns.mono (returns_mutateEvent (adds_openRegistrationNow opensAt now) hstored 3) ?_
      rw [hmutation]
      rintro opened w' ⟨hopened, hrewrites⟩
      refine ⟨hopened, .of_rewrites hrewrites, _, (hrewrites.stored eventId).trans (if_pos rfl), ?_⟩
      exact hpending
    · exact ⟨rfl, .refl w, payload, hstored, hpending⟩

theorem returns_loadRecipients {loaded : Option (List BotIdentity)}
    (h : ∀ others, loaded = some others → others = recipients) :
    Returns refuses recipients (loadRecipients loaded) w fun value w' =>
      value = recipients ∧ w' = w := by
  cases loaded with
  | some others => exact ⟨h others rfl, rfl⟩
  | none =>
    refine returns_call fun i hi => ?_
    show Returns _ _ (LifecycleAct.present _ i.recipients) _ _
    rw [hi.recipients]
    exact ⟨rfl, rfl⟩

/-- The openings that the first loop takes up, of which some have been handled. -/
def takenUp (cutoff : Nanos) (count : Nat) (events : List PlannedEvent) : List PlannedEvent :=
  (events.filter (·.registrationDue cutoff)).take (perActionLimit - count)

theorem takenUp_subset {count : Nat} {events : List PlannedEvent} :
    takenUp cutoff count events ⊆ events :=
  fun _ h => (List.mem_filter.mp (List.mem_of_mem_take h)).1

theorem returns_announceOpenings {events : List PlannedEvent} {count : Nat}
    {loaded : Option (List BotIdentity)}
    (hskip : scheduler.skipUnreachableVKRecipients = true)
    (hplatforms : ∀ recipient ∈ recipients, recipient.platform ≠ .system)
    (hloaded : ∀ others, loaded = some others → others = recipients)
    (hnodup : (events.map PlannedEvent.eventId).Nodup) (hstored : ∀ event ∈ events, event.Stored w) :
    Returns refuses recipients (announceOpenings scheduler now cutoff events count loaded) w
      fun _ w' => w.delivered ⊆ w'.delivered ∧
        (∀ event ∈ takenUp cutoff count events,
          NoticesSent refuses recipients event.eventId event.registrationRecipients w') ∧
        ∀ other, other ∉ (takenUp cutoff count events).map PlannedEvent.eventId →
          w'.stored other = w.stored other ∧ ∀ recipient, w'.Sent other recipient →
            w.Sent other recipient := by
  induction events generalizing count loaded w with
  | nil =>
    refine ⟨List.Subset.refl _, fun _ hmem => ?_, fun _ _ => ⟨rfl, fun _ h => h⟩⟩
    exact absurd (takenUp_subset hmem) List.not_mem_nil
  | cons event events ih =>
    obtain ⟨hnew, hnodup⟩ := List.nodup_cons.mp hnodup
    obtain ⟨hfirst, hrest⟩ := List.forall_mem_cons.mp hstored
    rw [announceOpenings]
    by_cases hskipped : (decide (perActionLimit ≤ count) || !event.registrationDue cutoff) = true
    · have hsame : takenUp cutoff count (event :: events) = takenUp cutoff count events := by
        rw [Bool.or_eq_true, decide_eq_true_eq, Bool.not_eq_true'] at hskipped
        rcases hskipped with hfull | hlater
        · rw [takenUp, takenUp, Nat.sub_eq_zero_of_le hfull, List.take_zero, List.take_zero]
        · rw [takenUp, takenUp, List.filter_cons_of_neg (by rw [hlater]; simp)]
      rw [if_pos hskipped, hsame]
      exact ih hloaded hnodup hrest
    · rw [if_neg hskipped]
      rw [Bool.or_eq_true, decide_eq_true_eq, Bool.not_eq_true', not_or, not_le,
        Bool.not_eq_false] at hskipped
      obtain ⟨hroom, hdue⟩ := hskipped
      have htaken : takenUp cutoff count (event :: events) =
          event :: takenUp cutoff (count + 1) events := by
        have hless : perActionLimit - count = perActionLimit - (count + 1) + 1 := by omega
        rw [takenUp, List.filter_cons_of_pos (by exact hdue), hless, List.take_succ_cons, takenUp]
      rw [htaken]
      refine Returns.bind (returns_openImminent rfl hfirst hdue) ?_
      rintro _ w₁ ⟨rfl, htouches₁, payload₁, hstored₁, hpending₁⟩
      rw [if_pos rfl]
      refine Returns.bind (returns_loadRecipients hloaded) ?_
      rintro _ _ ⟨rfl, rfl⟩
      refine Returns.bind (returns_announceOpening rfl hskip hplatforms hstored₁ hpending₁) ?_
      rintro _ w₂ ⟨htouches₂, hannounced⟩
      have htouches := htouches₁.trans htouches₂
      have hothers : ∀ other ∈ events, other.Stored w₂ := by
        intro other hother
        obtain ⟨payload, hpayload, hplanned⟩ := hrest other hother
        refine ⟨payload, (htouches.stored _ ?_).trans hpayload, hplanned⟩
        exact fun hsame => hnew (List.mem_map.mpr ⟨other, hother, hsame⟩)
      refine (ih (fun _ h => (Option.some.inj h).symm) hnodup hothers).mono ?_
      rintro _ w₃ ⟨hdelivered, hannouncedRest, hkept⟩
      refine ⟨List.Subset.trans htouches.delivered hdelivered, ?_, ?_⟩
      · refine List.forall_mem_cons.mpr ⟨hannounced.later (hkept event.eventId ?_).1 hdelivered,
          hannouncedRest⟩
        exact fun htwice => hnew ((List.map_subset _ takenUp_subset) htwice)
      · intro other hother
        rw [List.map_cons, List.mem_cons, not_or] at hother
        obtain ⟨hsame, hsent⟩ := hkept other hother.2
        refine ⟨hsame.trans (htouches.stored other hother.1), fun recipient h => ?_⟩
        exact htouches.sent other hother.1 recipient (hsent recipient h)

/-! ### One tick -/

theorem returns_publishScheduled (events : List PlannedEvent) (confirmations closings : Nat) :
    Returns refuses recipients (publishScheduled scheduler now cutoff events confirmations closings)
      w fun _ w' => w' = w := by
  induction events generalizing confirmations closings with
  | nil => exact rfl
  | cons event events ih =>
    have hpublish {c : Bool} {command : ScheduledCommand} :
        Returns refuses recipients (if c then publishCommand command else .done ()) w
          fun _ w' => w' = w := by
      cases c with
      | false => exact rfl
      | true =>
        refine returns_call fun i hi => ?_
        show Returns _ _ (LifecycleAct.present _ i.publish) _ _
        rw [hi.publish]
        exact rfl
    rw [publishScheduled]
    refine Returns.bind hpublish ?_
    rintro _ _ rfl
    refine Returns.bind hpublish ?_
    rintro _ _ rfl
    exact ih _ _

/-- The event after the completion of the backlog. -/
def afterBacklog (scheduler : Scheduler) (now : Nanos) (payload : Event) : Event :=
  match scheduler.registrationBacklogCutoff with
  | none => payload
  | some openedBefore => (completeBacklog openedBefore now payload).getD payload

/-- Every row of a list of events is rewritten, if it is to be changed. -/
theorem returns_forEach_mutateEvent {f : Event → Option Event} (hf : AddsKeys [] f)
    {payloads : List Event} (hnodup : (payloads.map Event.eventId).Nodup)
    (hstored : ∀ payload ∈ payloads, w.stored payload.eventId = some payload) :
    Returns refuses recipients (Prog.forEach (fun payload =>
        (mutateEvent payload.eventId f 4).bind fun _ => .done ()) payloads) w fun _ w' =>
      (∀ other, w'.stored other = if other ∈ payloads.map Event.eventId then
        (w.stored other).map fun payload => (f payload).getD payload else w.stored other) ∧
      w'.items.payloads.map Event.eventId = w.items.payloads.map Event.eventId ∧
      w'.delivered = w.delivered := by
  induction payloads generalizing w with
  | nil => exact ⟨fun _ => rfl, rfl, rfl⟩
  | cons payload payloads ih =>
    obtain ⟨hnew, hnodup⟩ := List.nodup_cons.mp hnodup
    obtain ⟨hfirst, hrest⟩ := List.forall_mem_cons.mp hstored
    rw [Prog.forEach]
    have hrow : Returns refuses recipients
        ((mutateEvent payload.eventId f 4).bind fun _ => .done ()) w fun _ w₁ =>
          Rewrites payload.eventId ((f payload).getD payload) w w₁ :=
      Returns.bind (returns_mutateEvent hf hfirst 3) fun _ _ h => h.2
    refine Returns.bind hrow ?_
    · intro _ w₁ hrewrites
      have hothers : ∀ other ∈ payloads, w₁.stored other.eventId = some other := by
        intro other hother
        rw [hrewrites.stored, if_neg, hrest other hother]
        exact fun hsame => hnew (List.mem_map.mpr ⟨other, hother, hsame⟩)
      refine (ih hnodup hothers).mono ?_
      rintro _ w₂ ⟨hstored₂, hids, hdelivered⟩
      refine ⟨fun other => ?_, hids.trans hrewrites.ids, hdelivered.trans hrewrites.delivered⟩
      rw [hstored₂, hrewrites.stored, List.map_cons]
      by_cases hid : other = payload.eventId
      · subst hid
        rw [if_neg hnew, if_pos rfl, if_pos List.mem_cons_self, hfirst]
        rfl
      · simp only [List.mem_cons, hid, false_or, if_false]

theorem stored_of_mem_payloads (h : payload ∈ w.items.payloads) :
    w.stored payload.eventId = some payload := by
  obtain ⟨revision, hrow⟩ := EventItems.mem_payloads.mp h
  rw [LifecycleWorld.stored, hrow]
  rfl

theorem mem_payloads_of_stored (h : w.stored eventId = some payload) :
    payload ∈ w.items.payloads ∧ payload.eventId = eventId := by
  obtain ⟨⟨revision, payload⟩, hrow, rfl⟩ := Option.map_eq_some_iff.mp h
  have hid : payload.eventId = eventId := (EventItems.find?_of_row hrow).2
  refine ⟨EventItems.mem_payloads.mpr ⟨revision, ?_⟩, hid⟩
  rw [hid]
  exact hrow

/-- The events are those that their ids find. -/
theorem payloads_eq_filterMap (w : LifecycleWorld) :
    w.items.payloads = (w.items.payloads.map Event.eventId).filterMap w.stored := by
  rw [List.filterMap_map]
  have hsome : List.filterMap (w.stored ∘ Event.eventId) w.items.payloads =
      List.filterMap some w.items.payloads :=
    List.filterMap_congr fun payload hpayload => stored_of_mem_payloads hpayload
  rw [hsome, List.filterMap_some]

/-- The state after the completion of the backlog. -/
structure BacklogCompleted (scheduler : Scheduler) (now : Nanos) (w w' : LifecycleWorld) : Prop where
  stored : ∀ other, w'.stored other = (w.stored other).map (afterBacklog scheduler now)
  ids : w'.items.payloads.map Event.eventId = w.items.payloads.map Event.eventId
  delivered : w'.delivered = w.delivered

theorem BacklogCompleted.payloads (h : BacklogCompleted scheduler now w w') :
    w'.items.payloads = w.items.payloads.map (afterBacklog scheduler now) := by
  rw [payloads_eq_filterMap w', h.ids, List.filterMap_map, ← List.filterMap_eq_map]
  refine List.filterMap_congr fun payload hpayload => ?_
  show w'.stored payload.eventId = some (afterBacklog scheduler now payload)
  rw [h.stored, stored_of_mem_payloads hpayload]
  rfl

theorem returns_completeBacklog {openedBefore : Nanos}
    (hcutoff : scheduler.registrationBacklogCutoff = some openedBefore) :
    Returns refuses recipients (completeRegistrationNotificationsBefore openedBefore now) w
      fun _ w' => BacklogCompleted scheduler now w w' := by
  have hafter (payload : Event) : afterBacklog scheduler now payload =
      (completeBacklog openedBefore now payload).getD payload := by
    rw [afterBacklog, hcutoff]
  refine returns_call fun i hi => ?_
  show Returns _ _ (Prog.bind (LifecycleAct.present _ (if i.storage = .served then _ else _)) _) w _
  rw [if_pos hi.storage]
  have hall : ∀ payload ∈ w.items.payloads, w.stored payload.eventId = some payload :=
    fun _ => stored_of_mem_payloads
  refine (returns_forEach_mutateEvent (adds_completeBacklog openedBefore now)
    (EventItems.nodup_payloads.sublist (List.filter_sublist.map _))
    fun payload hpayload => hall payload (List.mem_filter.mp hpayload).1).mono ?_
  rintro _ w' ⟨hstored, hids, hdelivered⟩
  refine ⟨fun other => ?_, hids, hdelivered⟩
  rw [hstored]
  cases hrow : w.stored other with
  | none => simp
  | some payload =>
    obtain ⟨hmem, hid⟩ := mem_payloads_of_stored hrow
    rw [Option.map_some, Option.map_some, hafter]
    split
    · rfl
    · next hlater =>
      have hnone : completeBacklog openedBefore now payload = none := by
        rw [← Option.not_isSome_iff_eq_none]
        refine fun hchanged => hlater (List.mem_map.mpr ⟨payload, ?_, hid⟩)
        exact List.mem_filter.mpr ⟨hmem, hchanged⟩
      rw [hnone]
      rfl

/-- The events that are planned at a tick. -/
def plannedAt (scheduler : Scheduler) (now : Nanos) (w : LifecycleWorld) : List PlannedEvent :=
  dueEvents (dispatchCutoff now) (3 * perActionLimit)
    (w.items.payloads.map (afterBacklog scheduler now))

/-- The openings that a tick takes up: the first hundred among the first three hundred events that
are due, in the order of their ids. -/
def openingsAt (scheduler : Scheduler) (now : Nanos) (w : LifecycleWorld) : List PlannedEvent :=
  takenUp (dispatchCutoff now) 0 (plannedAt scheduler now w)

theorem returns_run (hskip : scheduler.skipUnreachableVKRecipients = true)
    (hplatforms : ∀ recipient ∈ recipients, recipient.platform ≠ .system) :
    Returns refuses recipients (scheduler.run now) w fun _ w' =>
      w.delivered ⊆ w'.delivered ∧
        (∀ event ∈ openingsAt scheduler now w,
          NoticesSent refuses recipients event.eventId event.registrationRecipients w') ∧
        ∀ other, other ∉ (openingsAt scheduler now w).map PlannedEvent.eventId →
          w'.stored other = (w.stored other).map (afterBacklog scheduler now) ∧
            ∀ recipient, w'.Sent other recipient → w.Sent other recipient := by
  have hrest {w₁ : LifecycleWorld} (hbacklog : BacklogCompleted scheduler now w w₁) :
      Returns refuses recipients ((listBefore (dispatchCutoff now) (3 * perActionLimit)).bind
        fun events => (announceOpenings scheduler now (dispatchCutoff now) events 0 none).bind
          fun _ => publishScheduled scheduler now (dispatchCutoff now) events 0 0) w₁ fun _ w' =>
      w.delivered ⊆ w'.delivered ∧
        (∀ event ∈ openingsAt scheduler now w,
          NoticesSent refuses recipients event.eventId event.registrationRecipients w') ∧
        ∀ other, other ∉ (openingsAt scheduler now w).map PlannedEvent.eventId →
          w'.stored other = (w.stored other).map (afterBacklog scheduler now) ∧
            ∀ recipient, w'.Sent other recipient → w.Sent other recipient := by
    have hlist : Returns refuses recipients (listBefore (dispatchCutoff now) (3 * perActionLimit))
        w₁ fun events w₂ => events = plannedAt scheduler now w ∧ w₂ = w₁ := by
      refine returns_call fun i hi => ?_
      show Returns _ _ (Prog.bind (LifecycleAct.present _ (if i.storage = .served then _ else _)) _)
        w₁ _
      rw [if_pos hi.storage]
      refine ⟨?_, rfl⟩
      rw [plannedAt, ← hbacklog.payloads]
      rfl
    refine Returns.bind hlist ?_
    rintro _ w₁ ⟨rfl, rfl⟩
    have hnodup : ((plannedAt scheduler now w).map PlannedEvent.eventId).Nodup := by
      rw [plannedAt, ← hbacklog.payloads]
      exact nodup_dueEvents EventItems.nodup_payloads
    have hstored : ∀ event ∈ plannedAt scheduler now w, event.Stored w₁ := by
      intro event hevent
      rw [plannedAt, ← hbacklog.payloads] at hevent
      obtain ⟨payload, hpayload, rfl⟩ := mem_of_mem_dueEvents hevent
      exact ⟨payload, stored_of_mem_payloads hpayload, rfl⟩
    refine Returns.bind (returns_announceOpenings hskip hplatforms nofun hnodup hstored) ?_
    rintro _ w₂ ⟨hdelivered, hannounced, hkept⟩
    refine (returns_publishScheduled _ 0 0).mono ?_
    rintro _ _ rfl
    rw [hbacklog.delivered] at hdelivered
    refine ⟨hdelivered, hannounced, fun other hother => ?_⟩
    obtain ⟨hsame, hsent⟩ := hkept other hother
    refine ⟨hsame.trans (hbacklog.stored other), fun recipient h => ?_⟩
    have hbefore := hsent recipient h
    rw [LifecycleWorld.Sent, hbacklog.delivered] at hbefore
    exact hbefore
  rw [Scheduler.run]
  split
  · next hcutoff =>
    refine hrest ⟨fun other => ?_, rfl, rfl⟩
    have hsame : afterBacklog scheduler now = id := by
      funext payload
      rw [afterBacklog, hcutoff]
      rfl
    rw [hsame, Option.map_id, id]
  · next openedBefore hcutoff =>
    exact Returns.bind (returns_completeBacklog hcutoff) fun _ _ hbacklog => hrest hbacklog

/-! ## Settled openings -/

/-- The opening is completed, and everyone who does not refuse has been sent the notice. -/
structure OpeningSettled (refuses : BotIdentity → Bool) (recipients : List BotIdentity)
    (eventId : EventId) (w : LifecycleWorld) : Prop where
  completed : ∃ payload, w.stored eventId = some payload ∧
    payload.registrationOpenNotificationCompletedAt.isSome
  sent : ∀ recipient ∈ recipients, refuses recipient = false → w.Sent eventId recipient

/-- The opening is due, and it has not been completed. -/
def OpeningDue (now : Nanos) (w : LifecycleWorld) (eventId : EventId) : Prop :=
  ∃ payload, w.stored eventId = some payload ∧
    (plannedEvent payload).registrationDue (dispatchCutoff now) = true

/-- The opening was before the date up to which the scheduler completes them without a notice. -/
def InBacklog (scheduler : Scheduler) (w : LifecycleWorld) (eventId : EventId) : Prop :=
  ∃ openedBefore payload opensAt, scheduler.registrationBacklogCutoff = some openedBefore ∧
    w.stored eventId = some payload ∧ payload.registrationOpenAt = some opensAt ∧
    nanos opensAt ≤ openedBefore

/-- The tick takes the opening up and no Telegram recipient who is pending refuses it, or it
completes the opening with the backlog and everyone had been sent the notice. -/
def SettlesOpening (refuses : BotIdentity → Bool) (recipients : List BotIdentity)
    (scheduler : Scheduler) (now : Nanos) (w : LifecycleWorld) (eventId : EventId) : Prop :=
  eventId ∈ (openingsAt scheduler now w).map PlannedEvent.eventId ∧
      (∀ recipient ∈ recipients, RefusesOnTelegram refuses recipient = true →
        recipient.key ∈ w.notified eventId) ∨
    InBacklog scheduler w eventId ∧
      ∀ recipient ∈ recipients, refuses recipient = false → w.Sent eventId recipient

theorem afterBacklog_recipients (scheduler : Scheduler) (now : Nanos) (payload : Event) :
    (afterBacklog scheduler now payload).registrationOpenNotifiedRecipients =
      payload.registrationOpenNotifiedRecipients ∧
    (afterBacklog scheduler now payload).eventId = payload.eventId := by
  rw [afterBacklog]
  split
  · exact ⟨rfl, rfl⟩
  · rw [completeBacklog]
    split
    · rw [completeRegistration]
      split <;> exact ⟨rfl, rfl⟩
    · exact ⟨rfl, rfl⟩

theorem completed_afterBacklog (now : Nanos)
    (hpending : payload.registrationOpenNotificationCompletedAt = none) :
    (afterBacklog scheduler now payload).registrationOpenNotificationCompletedAt.isSome ↔
      ∃ openedBefore opensAt, scheduler.registrationBacklogCutoff = some openedBefore ∧
        payload.registrationOpenAt = some opensAt ∧ nanos opensAt ≤ openedBefore := by
  rw [afterBacklog]
  cases scheduler.registrationBacklogCutoff with
  | none => simp [hpending]
  | some openedBefore =>
    cases hopensAt : payload.registrationOpenAt with
    | none => simp [completeBacklog, hopensAt, hpending]
    | some opensAt =>
      by_cases hearly : nanos opensAt ≤ openedBefore
      · simp [completeBacklog, completeRegistration, hopensAt, hpending, hearly]
      · simp [completeBacklog, hopensAt, hpending, hearly]

/-- What is known of an opening that a tick takes up. -/
theorem mem_openingsAt (h : event ∈ openingsAt scheduler now w) :
    event.registrationRecipients = w.notified event.eventId ∧
      ∀ payload, w.stored event.eventId = some payload →
        (afterBacklog scheduler now payload).registrationOpenNotificationCompletedAt = none := by
  have hdue : event.registrationDue (dispatchCutoff now) = true :=
    (List.mem_filter.mp (List.mem_of_mem_take h)).2
  obtain ⟨rewritten, hmem, rfl⟩ := mem_of_mem_dueEvents (takenUp_subset h)
  obtain ⟨payload, hpayload, rfl⟩ := List.mem_map.mp hmem
  obtain ⟨hrecipients, hid⟩ := afterBacklog_recipients scheduler now payload
  have hstored : w.stored (plannedEvent (afterBacklog scheduler now payload)).eventId =
      some payload := by
    show w.stored (afterBacklog scheduler now payload).eventId = some payload
    rw [hid, stored_of_mem_payloads hpayload]
  constructor
  · rw [LifecycleWorld.notified, hstored]
    exact hrecipients
  · intro other hother
    rw [hstored] at hother
    rw [← Option.some.inj hother]
    exact (registrationDue_plannedEvent hdue).1

/-- What is stored stays justified. -/
abbrev KeepsJustified (refuses : BotIdentity → Bool) (eventId : EventId) (w w' : LifecycleWorld) :
    Prop :=
  KeysJustified refuses eventId (w.notified eventId) w →
    KeysJustified refuses eventId (w'.notified eventId) w'

theorem KeepsJustified.trans (h : KeepsJustified refuses eventId w w')
    (h' : KeepsJustified refuses eventId w' w'') : KeepsJustified refuses eventId w w'' :=
  fun hw => h' (h hw)

theorem KeepsJustified.of_leaves (h : LeavesOpening eventId w w') :
    KeepsJustified refuses eventId w w' :=
  fun hw => (Within.of_leaves h).justified hw .nil

/-- What the ticks before have stored is justified. -/
theorem keysJustified_of_repeats {w₀ : LifecycleWorld}
    (hticks : Repeats lifecycleHandler (amongWriters refuses eventId) scheduler.tick w₀ w)
    (hstart : KeysJustified refuses eventId (w₀.notified eventId) w₀) :
    KeysJustified refuses eventId (w.notified eventId) w := by
  refine hticks.keeps (R := KeepsJustified refuses eventId) (fun _ hw => hw)
    (fun _ _ _ => KeepsJustified.trans) (fun _ _ => KeepsJustified.of_leaves) ?_ hstart
  intro w₁ passages ending w₂ _ htrail hw₁
  obtain ⟨hcareful, -⟩ := htrail.of_wp (wp_tick hw₁)
  exact htrail.keeps (R := KeepsJustified refuses eventId) (fun _ hw => hw)
    (fun _ _ _ => KeepsJustified.trans) (fun _ _ => KeepsJustified.of_leaves)
    (fun passage hpassage => (hcareful passage hpassage).justified) hw₁

/-- A tick without transient failures, from a state in which the stored keys are justified. -/
theorem openingSettled_iff (hskip : scheduler.skipUnreachableVKRecipients = true)
    (hplatforms : ∀ recipient ∈ recipients, recipient.platform ≠ .system)
    (hjustified : KeysJustified refuses eventId (w.notified eventId) w)
    (hdue : OpeningDue now w eventId) :
    Returns refuses recipients (scheduler.run now) w fun _ w' =>
      (OpeningSettled refuses recipients eventId w' ↔
        SettlesOpening refuses recipients scheduler now w eventId) := by
  obtain ⟨payload, hstored, hpayload⟩ := hdue
  have hpending := (registrationDue_plannedEvent hpayload).1
  refine (returns_run hskip hplatforms).mono ?_
  rintro _ w' ⟨hdelivered, hannounced, hkept⟩
  by_cases htaken : eventId ∈ (openingsAt scheduler now w).map PlannedEvent.eventId
  · obtain ⟨event, hevent, rfl⟩ := List.mem_map.mp htaken
    obtain ⟨hkeys, hnotBacklog⟩ := mem_openingsAt hevent
    have hsettled := hannounced event hevent
    rw [hkeys] at hsettled
    obtain ⟨payload', hstored', hcompleted⟩ := hsettled.completed
    have hbacklog : ¬ InBacklog scheduler w event.eventId := by
      rintro ⟨openedBefore, other, opensAt, hcutoff, hother, hopensAt, hearly⟩
      obtain rfl := Option.some.inj (hother.symm.trans hstored)
      have hnone := hnotBacklog _ hstored
      have hsome := (completed_afterBacklog now hpending).mpr
        ⟨openedBefore, opensAt, hcutoff, hopensAt, hearly⟩
      rw [hnone] at hsome
      exact nomatch hsome
    constructor
    · rintro ⟨⟨other, hother, hdone⟩, -⟩
      rw [hstored'] at hother
      rw [← Option.some.inj hother] at hdone
      exact .inl ⟨htaken, hcompleted.mp hdone⟩
    · rintro (⟨-, hnone⟩ | ⟨hin, -⟩)
      · refine ⟨⟨payload', hstored', hcompleted.mpr hnone⟩, fun recipient hrecipient haccepts => ?_⟩
        by_cases hkey : recipient.key ∈ w.notified event.eventId
        · rcases hjustified recipient hkey with hsent | hrefuses
          · exact hsent.mono hdelivered
          · exact absurd (hrefuses.symm.trans haccepts) nofun
        · exact hsettled.sent recipient hrecipient hkey haccepts
      · exact absurd hin hbacklog
  · obtain ⟨hafter, hsent⟩ := hkept eventId htaken
    rw [hstored, Option.map_some] at hafter
    constructor
    · rintro ⟨⟨other, hother, hdone⟩, hall⟩
      rw [hafter] at hother
      rw [← Option.some.inj hother, completed_afterBacklog now hpending] at hdone
      obtain ⟨openedBefore, opensAt, hcutoff, hopensAt, hearly⟩ := hdone
      refine .inr ⟨⟨openedBefore, payload, opensAt, hcutoff, hstored, hopensAt, hearly⟩, ?_⟩
      exact fun recipient hrecipient haccepts => hsent recipient (hall recipient hrecipient haccepts)
    · rintro (⟨htaken', -⟩ | ⟨⟨openedBefore, other, opensAt, hcutoff, hother, hopensAt, hearly⟩, hall⟩)
      · exact absurd htaken' htaken
      · obtain rfl := Option.some.inj (hother.symm.trans hstored)
        refine ⟨⟨_, hafter, (completed_afterBacklog now hpending).mpr
          ⟨openedBefore, opensAt, hcutoff, hopensAt, hearly⟩⟩, ?_⟩
        exact fun recipient hrecipient haccepts =>
          (hall recipient hrecipient haccepts).mono hdelivered

/-- Over any number of ticks, whatever fails in them and whatever others write in between: no
recipient whose key is stored is sent the notice again, and the stored keys only grow. A tick without
transient failures returns, and it settles an opening that is due exactly if it takes the opening up
and no Telegram recipient who is pending refuses it for good. -/
theorem openings_settle (hskip : scheduler.skipUnreachableVKRecipients = true) {w₀ : LifecycleWorld}
    (hstart : KeysJustified refuses eventId (w₀.notified eventId) w₀)
    (hticks : Repeats lifecycleHandler (amongWriters refuses eventId) scheduler.tick w₀ w) :
    (∀ passages ending w', Trail lifecycleHandler (amongWriters refuses eventId) scheduler.tick w
        passages ending w' →
      (∀ passage ∈ passages,
        (∀ notice, passage.op.notice = some notice → notice.eventId = eventId →
          notice.recipient.key ∉ passage.before.notified eventId) ∧
        passage.before.notified eventId ⊆ passage.after.notified eventId) ∧
      w.notified eventId ⊆ w'.notified eventId) ∧
    ∀ recipients : List BotIdentity, (∀ recipient ∈ recipients, recipient.platform ≠ .system) →
      ∀ inputs : Nat → LifecycleInput, (∀ n, NoneTransient refuses recipients (inputs n)) →
        OpeningDue (inputs 0).now w eventId →
          (scheduler.tick.run lifecycleHandler inputs w).1 = .ok () ∧
            (OpeningSettled refuses recipients eventId
                (scheduler.tick.run lifecycleHandler inputs w).2.2 ↔
              SettlesOpening refuses recipients scheduler (inputs 0).now w eventId) := by
  have hjustified := keysJustified_of_repeats hticks hstart
  constructor
  · intro passages ending w' htrail
    obtain ⟨hcareful, -⟩ := htrail.of_wp (wp_tick hjustified)
    refine ⟨fun passage h => ⟨(hcareful passage h).fresh, (hcareful passage h).grows⟩, ?_⟩
    refine htrail.keeps (R := fun w w' => w.notified eventId ⊆ w'.notified eventId)
      (fun _ => List.Subset.refl _) (fun _ _ _ => List.Subset.trans) ?_
      fun passage h => (hcareful passage h).grows
    exact fun _ _ hmove => (Within.of_leaves hmove : Within eventId [] _ _).grows
  · intro recipients hplatforms inputs hinputs hdue
    obtain ⟨hvalue, herror⟩ := run_of_wp (openingSettled_iff hskip hplatforms hjustified hdue)
      (fun _ => rfl) (s := fun n => inputs (n + 1)) fun n => hinputs (n + 1)
    have htick : scheduler.tick.run lifecycleHandler inputs w =
        (scheduler.run (inputs 0).now).run lifecycleHandler (fun n => inputs (n + 1)) w := rfl
    rw [htick]
    cases hends : ((scheduler.run (inputs 0).now).run lifecycleHandler
        (fun n => inputs (n + 1)) w).1 with
    | ok value => exact ⟨rfl, hvalue value hends⟩
    | error error => exact (herror error hends).elim

/-! ### A recipient who has blocked the bot -/

/-- A game that has opened, of which nobody has been told. -/
def openedGame : Event :=
  { eventId := "game", name := "Игра", registrationOpenAt := some 1000000 }

def openedWorld : LifecycleWorld where
  items := .ofList [⟨1, .event openedGame⟩]

def openingScheduler : Scheduler where
  sha1 _ := .replicate 16 0

def blocker : BotIdentity := ⟨.telegram, 7⟩

def deserter : BotIdentity := ⟨.vk, 8⟩

/-- The messengers refuse the two of them, and nobody else. -/
def refusesNotices (recipient : BotIdentity) : Bool :=
  recipient = blocker || recipient = deserter

/-- A tick in which nothing fails but what is refused. -/
def refusingInput (recipients : List BotIdentity) : LifecycleInput where
  now := 2000000000
  recipients := some recipients
  telegram notice :=
    if refusesNotices notice.recipient then
      .answered 403 (some { ok := false, description := "Forbidden: bot was blocked by the user" })
    else .answered 200 (some { ok := true })
  vk request :=
    .answered 200 (some ⟨if refusesNotices request.notice.recipient then some 901 else none⟩)

theorem noneTransient_refusingInput (recipients : List BotIdentity) :
    NoneTransient refusesNotices recipients (refusingInput recipients) where
  storage := rfl
  recipients := rfl
  publish := rfl
  telegram notice := by
    cases hrefuses : refusesNotices notice.recipient with
    | false => simp [refusingInput, hrefuses, telegramAccepts, HttpAnswer.body]
    | true =>
      refine ⟨403, { ok := false, description := "Forbidden: bot was blocked by the user" }, ?_, rfl,
        "bot was blocked by the user", List.mem_cons_self, "Forbidden: ".toList, [], ?_⟩
      · simp [refusingInput, hrefuses]
      · decide +kernel
  vk request := by
    refine ⟨⟨if refusesNotices request.notice.recipient then some 901 else none⟩, rfl, .inr ?_⟩
    cases hrefuses : refusesNotices request.notice.recipient <;> simp

/-- A game master who is told, and one who has left VK. -/
theorem told_despite_deserter :
    OpeningSettled refusesNotices [⟨.telegram, 9⟩, deserter] "game"
      (openingScheduler.tick.run lifecycleHandler
        (fun _ => refusingInput [⟨.telegram, 9⟩, deserter]) openedWorld).2.2 := by
  have hstart : KeysJustified refusesNotices "game" (openedWorld.notified "game") openedWorld := by
    intro recipient hkey
    rw [show openedWorld.notified "game" = [] by decide +kernel] at hkey
    exact absurd hkey List.not_mem_nil
  have hplatforms : ∀ recipient ∈ [⟨.telegram, 9⟩, deserter], recipient.platform ≠ .system := by
    decide
  refine ((@openings_settle _ _ "game" openingScheduler rfl openedWorld hstart
    (.refl openedWorld)).2 _ hplatforms _ (fun _ => noneTransient_refusingInput _) ?_).2.mpr
      (.inl ⟨?_, ?_⟩)
  · exact ⟨openedGame, by decide +kernel, by decide +kernel⟩
  · decide +kernel
  · decide +kernel

/-- A game master who has blocked the bot keeps the opening pending: a tick in which nothing else
fails leaves everything as it was. -/
theorem pending_for_blocker :
    (∀ n, NoneTransient refusesNotices [blocker] ((fun _ : Nat => refusingInput [blocker]) n)) ∧
    OpeningDue 2000000000 openedWorld "game" ∧
    (openingScheduler.tick.run lifecycleHandler (fun _ => refusingInput [blocker]) openedWorld).1 =
      .ok () ∧
    (openingScheduler.tick.run lifecycleHandler (fun _ => refusingInput [blocker])
      openedWorld).2.2 = openedWorld ∧
    ¬ ∃ payload, openedWorld.stored "game" = some payload ∧
      payload.registrationOpenNotificationCompletedAt.isSome := by
  refine ⟨fun _ => noneTransient_refusingInput _, ⟨openedGame, ?_, ?_⟩, ?_, ?_, ?_⟩
  · decide +kernel
  · decide +kernel
  · rfl
  · rfl
  · rintro ⟨payload, hstored, hcompleted⟩
    rw [show openedWorld.stored "game" = some openedGame by decide +kernel] at hstored
    rw [← Option.some.inj hstored] at hcompleted
    exact nomatch hcompleted

end LarpBot
