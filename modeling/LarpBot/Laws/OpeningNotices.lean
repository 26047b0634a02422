import LarpBot.Application.LifecycleScheduler
import LarpBot.Foundation.Trails

/-!
# The notices of an opening

What a tick of the lifecycle scheduler does for one opening while other writers of the table leave
the stored keys of the event alone. A recipient whose key is stored is not asked again, the stored
keys only grow, and each of them is the key of a recipient who has been sent the notice or has
refused it (`Careful`, `wp_tick`). What a tick does for another event is not about the opening at all
(`LifecycleCall.NotAbout`).
-/

namespace LarpBot

open Atomic

variable {items : EventItems} {eventId : EventId} {revision : Nat} {payload : Event}

namespace EventItems

theorem find?_of_row {found : Nat × Event} (h : items.row eventId = some found) :
    items.find? (.event eventId) = some ⟨found.1, .event found.2⟩ ∧ found.2.eventId = eventId := by
  obtain ⟨item, hitem, hrow⟩ := Option.bind_eq_some_iff.mp h
  obtain ⟨stored, hstored, rfl⟩ := Option.map_eq_some_iff.mp hrow
  have hdocument := EventDocument.asEvent_eq_some.mp hstored
  have hkey := Store.key_of_find? hitem
  rw [hdocument] at hkey
  refine ⟨?_, EventKey.event.inj hkey⟩
  rw [hitem, ← hdocument]

theorem row_eq_some : items.row eventId = some (revision, payload) ↔
    items.find? (.event eventId) = some ⟨revision, .event payload⟩ := by
  constructor
  · exact fun h => (find?_of_row h).1
  · intro h
    rw [row, h]
    rfl

/-- The events of the table, in the order of its rows. -/
def payloads (items : EventItems) : List Event :=
  items.rows.filterMap (·.document.asEvent)

theorem map_eventId_payloads : items.payloads.map Event.eventId =
    (items.rows.map fun item => item.document.key).filterMap EventKey.asEvent := by
  rw [payloads, List.map_filterMap, List.filterMap_map]
  refine congrArg (List.filterMap · items.rows) (funext ?_)
  rintro ⟨revision, document⟩
  cases document <;> rfl

theorem mem_payloads : payload ∈ items.payloads ↔
    ∃ revision, items.row payload.eventId = some (revision, payload) := by
  rw [payloads, List.mem_filterMap]
  constructor
  · rintro ⟨item, hitem, hevent⟩
    have hdocument := EventDocument.asEvent_eq_some.mp hevent
    have hfound : items.find? (EventDocument.key item.document) = some item := Table.find?_key hitem
    refine ⟨item.revision, row_eq_some.mpr ?_⟩
    rw [hdocument] at hfound
    rw [← hdocument]
    exact hfound
  · rintro ⟨revision, hrow⟩
    exact ⟨_, Table.mem_of_find? (row_eq_some.mp hrow), rfl⟩

theorem nodup_payloads : (items.payloads.map Event.eventId).Nodup := by
  refine Table.nodup_filterMap items _ EventKey.asEvent ?_ ?_
  · intro k k' b hk hk'
    cases k <;> cases k' <;> simp_all [EventKey.asEvent]
  · rintro ⟨revision, document⟩
    cases document <;> rfl

theorem update_eq (items : EventItems) (revision : Nat) (payload : Event) :
    items.update revision payload =
      if (items.find? (.event payload.eventId)).any (·.revision = revision) then
        (.written, items.insert ⟨revision + 1, .event payload⟩)
      else (.refused, items) := by
  have htransact : transact [.put ⟨revision + 1, .event payload⟩ (.revision revision)] items =
      if (items.find? (.event payload.eventId)).any (·.revision = revision) then
        (.committed, items.insert ⟨revision + 1, .event payload⟩)
      else (.cancelled, items) := by
    rw [transact, if_neg (by simp)]
    simp only [List.all_cons, List.all_nil, Bool.and_true]
    rfl
  rw [update, htransact]
  by_cases hread : (items.find? (.event payload.eventId)).any (·.revision = revision) = true
  · rw [if_pos hread, if_pos hread]
  · rw [if_neg hread, if_neg hread]

theorem row_insert {item : Item EventDocument} (h : item.document = .event payload) :
    EventItems.row (items.insert item) eventId =
      if eventId = payload.eventId then some (item.revision, payload) else items.row eventId := by
  have hfind : (items.insert item).find? (.event eventId) =
      if EventKey.event eventId = item.document.key then some item
      else items.find? (.event eventId) := Table.find?_insert items item (.event eventId)
  rw [row, hfind, h]
  by_cases hid : eventId = payload.eventId
  · subst hid
    simp [EventDocument.key, h, EventDocument.asEvent]
  · simp [EventDocument.key, hid, row]

/-- An update leaves the table as it was, or it writes the row of its event. -/
theorem update_cases (items : EventItems) (revision : Nat) (payload : Event) :
    (items.update revision payload).2 = items ∨
      ∀ eventId, (items.update revision payload).2.row eventId =
        if eventId = payload.eventId then some (revision + 1, payload) else items.row eventId := by
  rw [update_eq]
  split
  · exact .inr fun eventId => row_insert rfl
  · exact .inl rfl

/-- An update with the revision of the row writes it, in its place. -/
theorem update_of_row {read : Event} (h : items.row payload.eventId = some (revision, read)) :
    (items.update revision payload).1 = .written ∧
      (∀ eventId, (items.update revision payload).2.row eventId =
        if eventId = payload.eventId then some (revision + 1, payload) else items.row eventId) ∧
      (items.update revision payload).2.payloads.map Event.eventId =
        items.payloads.map Event.eventId := by
  have hfound := row_eq_some.mp h
  have hinsert : items.update revision payload =
      (.written, items.insert ⟨revision + 1, .event payload⟩) := by
    rw [update_eq, hfound]
    simp
  rw [hinsert]
  refine ⟨rfl, fun eventId => row_insert rfl, ?_⟩
  rw [map_eventId_payloads, map_eventId_payloads]
  exact congrArg (List.filterMap EventKey.asEvent) (Table.map_key_insert_of_some hfound)

end EventItems

/-! ## What is stored and what is sent -/

namespace LifecycleWorld

variable (w : LifecycleWorld)

/-- The stored event. -/
def stored (eventId : EventId) : Option Event :=
  (w.items.row eventId).map Prod.snd

/-- The stored keys of an event. -/
def notified (eventId : EventId) : List String :=
  ((w.stored eventId).map Event.registrationOpenNotifiedRecipients).getD []

/-- A recipient has been sent the notice of an event. -/
def Sent (eventId : EventId) (recipient : BotIdentity) : Prop :=
  ∃ notice ∈ w.delivered, notice.eventId = eventId ∧ notice.recipient = recipient

end LifecycleWorld

/-- The notice that a call asks a messenger to send. -/
def LifecycleCall.notice : LifecycleCall → Option OpeningNotice
  | sendTelegram notice => some notice
  | postVK request => some request.notice
  | _ => none

/-- The event whose row a call updates. -/
def LifecycleCall.updates : LifecycleCall → Option EventId
  | updateItem _ payload => some payload.eventId
  | _ => none

variable {w w' w'' : LifecycleWorld} {recipient : BotIdentity}

theorem LifecycleWorld.Sent.mono (h : w.Sent eventId recipient) (hw : w.delivered ⊆ w'.delivered) :
    w'.Sent eventId recipient := by
  obtain ⟨notice, hnotice, hfor⟩ := h
  exact ⟨notice, hw hnotice, hfor⟩

namespace LifecycleCall

/-- What a call can do to the table. -/
theorem items_perform (c : LifecycleCall) (i : LifecycleInput) (w : LifecycleWorld) :
    (c.perform i w).2.items = w.items ∨
      ∃ revision payload, c = .updateItem revision payload ∧
        (c.perform i w).2.items = (w.items.update revision payload).2 := by
  cases c with
  | updateItem revision payload =>
    cases hstorage : i.storage <;> simp [perform, hstorage]
  | sendTelegram notice =>
    refine .inl ?_
    rw [perform]
    split <;> rfl
  | postVK request =>
    refine .inl ?_
    rw [perform]
    split <;> rfl
  | _ => exact .inl rfl

/-- What a call can do to the notices. -/
theorem delivered_perform (c : LifecycleCall) (i : LifecycleInput) (w : LifecycleWorld) :
    (c.perform i w).2.delivered = w.delivered ∨
      ∃ notice, c.notice = some notice ∧ (c.perform i w).2.delivered = w.delivered ++ [notice] := by
  cases c with
  | updateItem revision payload =>
    cases hstorage : i.storage <;> simp [perform, hstorage]
  | sendTelegram notice =>
    rw [perform]
    split
    · exact .inr ⟨notice, rfl, rfl⟩
    · exact .inl rfl
  | postVK request =>
    rw [perform]
    split
    · exact .inr ⟨request.notice, rfl, rfl⟩
    · exact .inl rfl
  | _ => exact .inl rfl

theorem delivered_sendTelegram {notice : OpeningNotice} {i : LifecycleInput}
    (h : telegramAccepts (i.telegram notice) = true) :
    (perform (.sendTelegram notice) i w).2.delivered = w.delivered ++ [notice] := by
  simp only [perform, if_pos h]

theorem delivered_postVK {request : VkRequest} {i : LifecycleInput}
    (h : vkAccepts (i.vk request) = true) :
    (perform (.postVK request) i w).2.delivered = w.delivered ++ [request.notice] := by
  simp only [perform, if_pos h]

theorem subset_delivered_perform (c : LifecycleCall) (i : LifecycleInput) (w : LifecycleWorld) :
    w.delivered ⊆ (c.perform i w).2.delivered := by
  rcases c.delivered_perform i w with h | ⟨notice, -, h⟩
  · rw [h]
    exact List.Subset.refl _
  · rw [h]
    exact List.subset_append_left _ _

/-- A call leaves the event as it was, or it writes it. -/
theorem stored_perform (c : LifecycleCall) (i : LifecycleInput) (w : LifecycleWorld)
    (eventId : EventId) : (c.perform i w).2.stored eventId = w.stored eventId ∨
      ∃ revision payload, c = .updateItem revision payload ∧ payload.eventId = eventId ∧
        (c.perform i w).2.stored eventId = some payload := by
  rcases c.items_perform i w with hitems | ⟨revision, payload, hc, hitems⟩
  · rw [LifecycleWorld.stored, hitems]
    exact .inl rfl
  · rcases w.items.update_cases revision payload with hsame | hrow
    · rw [LifecycleWorld.stored, hitems, hsame]
      exact .inl rfl
    · rw [LifecycleWorld.stored, hitems, hrow]
      by_cases hid : eventId = payload.eventId
      · rw [if_pos hid]
        exact .inr ⟨revision, payload, hc, hid.symm, rfl⟩
      · rw [if_neg hid]
        exact .inl rfl

theorem stored_perform_of_ne {c : LifecycleCall} (h : c.updates ≠ some eventId)
    (i : LifecycleInput) (w : LifecycleWorld) :
    (c.perform i w).2.stored eventId = w.stored eventId := by
  rcases c.stored_perform i w eventId with hsame | ⟨revision, payload, rfl, hid, -⟩
  · exact hsame
  · exact absurd (congrArg some hid) h

end LifecycleCall

theorem BotIdentity.key_injective {identity identity' : BotIdentity}
    (h : identity.key = identity'.key) : identity = identity' := by
  obtain ⟨platform, platformUserId⟩ := identity
  obtain ⟨platform', platformUserId'⟩ := identity'
  have hdigits (n : Nat) : Nat.ofDigitChars 10 (toString n).toList 0 = n := by
    rw [Nat.toString_eq_repr, Nat.toList_repr, Nat.ofDigitChars_ten_toDigits]
  have hchars := congrArg String.toList h
  have hkey (platform : Platform) (n : Nat) : (BotIdentity.key ⟨platform, n⟩).toList =
      platform.value.toList ++ ':' :: (toString n).toList := by
    rw [BotIdentity.key]
    simp only [String.toList_append, List.append_assoc]
    rfl
  rw [hkey, hkey] at hchars
  by_cases hplatform : platform = platform'
  · subst hplatform
    have hid := (List.cons.inj (List.append_cancel_left hchars)).2
    rw [← hdigits platformUserId, hid, hdigits]
  · cases platform <;> cases platform' <;>
      first
        | exact absurd rfl hplatform
        | simp [Platform.value] at hchars

/-! ## Ticks keep to the stored keys -/

/-- What the other writers of the table leave alone: the stored keys of the event. -/
structure LeavesOpening (eventId : EventId) (w w' : LifecycleWorld) : Prop where
  notified : w'.notified eventId = w.notified eventId
  delivered : w.delivered ⊆ w'.delivered

/-- The messengers accept nothing for the recipients who refuse, and report no one else so. -/
structure Faithful (refuses : BotIdentity → Bool) (i : LifecycleInput) : Prop where
  telegram : ∀ notice, refuses notice.recipient = true → telegramAccepts (i.telegram notice) = false
  vk : ∀ request reply, (i.vk request).body = some reply →
    (refuses request.notice.recipient = true → reply.errorCode.isSome) ∧
      (reply.errorCode = some 901 ∨ reply.errorCode = some 902 →
        refuses request.notice.recipient = true)

/-- Every stored key is the key of a recipient who has been sent the notice, or refuses it. -/
def KeysJustified (refuses : BotIdentity → Bool) (eventId : EventId) (keys : List String)
    (w : LifecycleWorld) : Prop :=
  ∀ recipient : BotIdentity, recipient.key ∈ keys →
    w.Sent eventId recipient ∨ refuses recipient = true

/-- What a call of the scheduler does for an opening. -/
structure Careful (refuses : BotIdentity → Bool) (eventId : EventId) (c : LifecycleCall)
    (w w' : LifecycleWorld) : Prop where
  fresh : ∀ notice, c.notice = some notice → notice.eventId = eventId →
    notice.recipient.key ∉ w.notified eventId
  grows : w.notified eventId ⊆ w'.notified eventId
  delivered : w.delivered ⊆ w'.delivered
  justified : KeysJustified refuses eventId (w.notified eventId) w →
    KeysJustified refuses eventId (w'.notified eventId) w'

/-- The stored keys stay, others are added only if they are among some keys. -/
structure Within (eventId : EventId) (keys : List String) (w w' : LifecycleWorld) : Prop where
  grows : w.notified eventId ⊆ w'.notified eventId
  delivered : w.delivered ⊆ w'.delivered
  among : ∀ key ∈ w'.notified eventId, key ∈ w.notified eventId ∨ key ∈ keys

variable {refuses : BotIdentity → Bool} {keys : List String}

namespace Within

theorem refl (w : LifecycleWorld) : Within eventId keys w w :=
  ⟨List.Subset.refl _, List.Subset.refl _, fun _ hkey => .inl hkey⟩

theorem trans (h : Within eventId keys w w') (h' : Within eventId keys w' w'') :
    Within eventId keys w w'' := by
  refine ⟨List.Subset.trans h.grows h'.grows, List.Subset.trans h.delivered h'.delivered, fun key hkey => ?_⟩
  rcases h'.among key hkey with hold | hnew
  · exact h.among key hold
  · exact .inr hnew

theorem of_leaves (h : LeavesOpening eventId w w') : Within eventId keys w w' := by
  refine ⟨?_, h.delivered, fun key hkey => .inl ?_⟩
  · rw [h.notified]
    exact List.Subset.refl _
  · rw [← h.notified]
    exact hkey

theorem justified (h : Within eventId keys w w')
    (hw : KeysJustified refuses eventId (w.notified eventId) w) (hkeys : KeysJustified refuses eventId keys w') :
    KeysJustified refuses eventId (w'.notified eventId) w' := by
  intro recipient hkey
  rcases h.among _ hkey with hold | hnew
  · exact (hw recipient hold).imp_left fun hsent => hsent.mono h.delivered
  · exact hkeys recipient hnew

end Within

theorem KeysJustified.mono {keys : List String} (h : KeysJustified refuses eventId keys w)
    (hw : w.delivered ⊆ w'.delivered) : KeysJustified refuses eventId keys w' :=
  fun recipient hkey => (h recipient hkey).imp_left fun hsent => hsent.mono hw

theorem KeysJustified.nil : KeysJustified refuses eventId [] w :=
  fun _ hkey => absurd hkey List.not_mem_nil

/-- The surroundings of the ticks. -/
abbrev amongWriters (refuses : BotIdentity → Bool) (eventId : EventId) :
    Surround LifecycleWorld LifecycleInput :=
  ⟨LeavesOpening eventId, Faithful refuses⟩

/-! ### Work on other events -/

/-- A call is about another event, or about none. -/
def LifecycleCall.NotAbout (eventId : EventId) (c : LifecycleCall) : Prop :=
  c.updates ≠ some eventId ∧ ∀ notice, c.notice = some notice → notice.eventId ≠ eventId

/-- What the table answers: rows stand under the ids of their events. -/
def Reads : (c : LifecycleCall) → c.Ans → Prop
  | .getRow eventId, answer => ∀ found, answer = some (some found) → found.2.eventId = eventId
  | .scanRows, answer => ∀ rows, answer = some rows → (rows.map Event.eventId).Nodup
  | _, _ => True

theorem reads_perform (c : LifecycleCall) (i : LifecycleInput) (w : LifecycleWorld) :
    Reads c (c.perform i w).1 := by
  cases c with
  | getRow eventId =>
    intro found hfound
    simp only [LifecycleCall.perform] at hfound
    split at hfound
    · exact (EventItems.find?_of_row (Option.some.inj hfound)).2
    · exact nomatch hfound
  | scanRows =>
    intro rows hrows
    simp only [LifecycleCall.perform] at hrows
    split at hrows
    · rw [← Option.some.inj hrows]
      exact EventItems.nodup_payloads
    · exact nomatch hrows
  | _ => trivial

theorem notified_perform_of_ne {c : LifecycleCall} (h : c.updates ≠ some eventId)
    (i : LifecycleInput) (w : LifecycleWorld) :
    (c.perform i w).2.notified eventId = w.notified eventId := by
  rw [LifecycleWorld.notified, c.stored_perform_of_ne h, LifecycleWorld.notified]

theorem within_perform_of_ne {c : LifecycleCall} (h : c.updates ≠ some eventId)
    (i : LifecycleInput) (w : LifecycleWorld) : Within eventId keys w (c.perform i w).2 :=
  .of_leaves ⟨notified_perform_of_ne h i w, c.subset_delivered_perform i w⟩

/-- A call that updates no row of the event is careful, if it sends no notice to a stored key. -/
theorem careful_of_ne {c : LifecycleCall} (h : c.updates ≠ some eventId)
    (hfresh : ∀ notice, c.notice = some notice → notice.eventId = eventId →
      notice.recipient.key ∉ w.notified eventId) (i : LifecycleInput) :
    Careful refuses eventId c w (c.perform i w).2 := by
  have hwithin : Within eventId [] w (c.perform i w).2 := within_perform_of_ne h i w
  exact ⟨hfresh, hwithin.grows, hwithin.delivered, fun hw => hwithin.justified hw .nil⟩

/-- Work on other events is careful, and leaves the stored keys as they are. -/
theorem wp_of_notAbout {α : Type} {p : LifecycleAct α} {Q : α → Prop}
    (hp : p.Makes Reads (LifecycleCall.NotAbout eventId) Q) :
    wp lifecycleHandler (amongWriters refuses eventId) (Careful refuses eventId)
      (fun a w' => Within eventId [] w w' ∧ Q a) (fun _ _ => True) p w := by
  have hcareful := wp_of_makes (h := lifecycleHandler) (E := amongWriters refuses eventId)
    (G := Careful refuses eventId) (w := w) hp (fun c i w _ => reads_perform c i w)
    (fun c i w hc _ => careful_of_ne hc.1 (fun notice hnotice hid => absurd hid (hc.2 notice hnotice)) i)
  have hkeeps := wp_keeps_of_makes (h := lifecycleHandler)
    (E := amongWriters refuses eventId) (R := Within eventId []) (w := w) Within.refl
    (fun _ _ _ => Within.trans) (fun _ _ => Within.of_leaves) hp
    (fun c i w _ => reads_perform c i w) (fun c i w hc _ => within_perform_of_ne hc.1 i w)
  refine wp_mono (wp_weaken (wp_and hcareful hkeeps) (fun _ _ h => h) (fun _ h => h) ?_) ?_ ?_
  · exact fun _ _ _ h => h.1
  · exact fun _ _ h => h.2
  · exact fun _ _ _ => trivial

/-! ### The mutations -/

/-- A mutation leaves the id, and it keeps the stored keys and adds some of `keys`. -/
def AddsKeys (keys : List String) (f : Event → Option Event) : Prop :=
  ∀ payload payload', f payload = some payload' → payload'.eventId = payload.eventId ∧
    payload.registrationOpenNotifiedRecipients ⊆ payload'.registrationOpenNotifiedRecipients ∧
    ∀ key ∈ payload'.registrationOpenNotifiedRecipients,
      key ∈ payload.registrationOpenNotifiedRecipients ∨ key ∈ keys

theorem mem_firstOccurrences {key : String} {values seen : List String} :
    key ∈ firstOccurrences seen values ↔ key ∈ seen ∨ key ∈ values := by
  induction values generalizing seen with
  | nil => simp [firstOccurrences]
  | cons value rest ih =>
    rw [firstOccurrences]
    split
    · next hseen =>
      rw [ih, List.mem_cons]
      exact ⟨fun h => h.imp_right .inr, fun h => h.elim .inl fun h =>
        h.elim (fun hvalue => .inl (hvalue ▸ hseen)) .inr⟩
    · rw [ih, List.mem_append, List.mem_singleton, List.mem_cons, or_assoc]

theorem adds_openRegistrationNow (scheduledAt openedAt : Nanos) :
    AddsKeys [] (openRegistrationNow scheduledAt openedAt) := by
  intro payload payload' h
  rw [openRegistrationNow] at h
  split at h
  · rw [← Option.some.inj h]
    exact ⟨rfl, List.Subset.refl _, fun _ hkey => .inl hkey⟩
  · exact nomatch h

theorem adds_completeRegistration (completedAt : Nanos) :
    AddsKeys [] (completeRegistration completedAt) := by
  intro payload payload' h
  rw [completeRegistration] at h
  split at h
  · exact nomatch h
  · rw [← Option.some.inj h]
    exact ⟨rfl, List.Subset.refl _, fun _ hkey => .inl hkey⟩

theorem adds_completeBacklog (openedBefore completedAt : Nanos) :
    AddsKeys [] (completeBacklog openedBefore completedAt) := by
  intro payload payload' h
  rw [completeBacklog] at h
  split at h
  · exact adds_completeRegistration completedAt payload payload' h
  · exact nomatch h

theorem adds_markRegistrationDelivered (recipients : List String) (updatedAt : Nanos) :
    AddsKeys recipients (markRegistrationDelivered recipients updatedAt) := by
  intro payload payload' h
  rw [markRegistrationDelivered] at h
  split at h
  · exact nomatch h
  · rw [← Option.some.inj h]
    refine ⟨rfl, fun key hkey => ?_, fun key hkey => ?_⟩
    · exact mem_firstOccurrences.mpr (.inr (List.mem_append_left _ hkey))
    · exact List.mem_append.mp ((mem_firstOccurrences.mp hkey).resolve_left List.not_mem_nil)

/-- The calls of a mutation are about the row of its event. -/
theorem notAbout_mutateEvent {f : Event → Option Event} (hf : AddsKeys keys f) {eventId' : EventId}
    (hid : eventId' ≠ eventId) (attempts : Nat) :
    (mutateEvent eventId' f attempts).Makes Reads (LifecycleCall.NotAbout eventId) fun _ => True := by
  induction attempts with
  | zero => trivial
  | succ attempts ih =>
    refine ⟨⟨(fun h => by cases h), fun _ h => by cases h⟩, fun answer hanswer => ?_⟩
    obtain _ | _ | ⟨revision, payload⟩ := answer
    · trivial
    · trivial
    · have hread : payload.eventId = eventId' := hanswer (revision, payload) rfl
      dsimp only [Prog.bind_eq, Prog.done_bind, LifecycleAct.present]
      cases hmutation : f payload with
      | none => trivial
      | some payload' =>
        have hwritten := (hf payload payload' hmutation).1.trans hread
        refine ⟨⟨fun hsame => hid (hwritten.symm.trans (Option.some.inj hsame)), fun _ h => by cases h⟩, ?_⟩
        intro outcome _
        cases outcome with
        | written => trivial
        | failed => trivial
        | refused =>
          show Prog.Makes _ _ _ (if attempts = 0 then _ else _)
          split
          · trivial
          · exact ih

/-- What an update of the row of the event adds to the stored keys. -/
theorem within_updateItem (revision : Nat) (i : LifecycleInput)
    (hgrows : w.notified eventId ⊆ payload.registrationOpenNotifiedRecipients)
    (hadded : ∀ key ∈ payload.registrationOpenNotifiedRecipients,
      key ∈ w.notified eventId ∨ key ∈ keys) :
    Within eventId keys w (LifecycleCall.perform (.updateItem revision payload) i w).2 := by
  have hdelivered := LifecycleCall.subset_delivered_perform (.updateItem revision payload) i w
  rcases LifecycleCall.stored_perform (.updateItem revision payload) i w eventId with
    hsame | ⟨revision', payload', hc, -, hwritten⟩
  · exact .of_leaves ⟨by rw [LifecycleWorld.notified, hsame, LifecycleWorld.notified], hdelivered⟩
  · obtain ⟨rfl, rfl⟩ := LifecycleCall.updateItem.inj hc
    have hnotified : (LifecycleCall.perform (.updateItem revision payload) i w).2.notified eventId =
        payload.registrationOpenNotifiedRecipients := by
      rw [LifecycleWorld.notified, hwritten]
      rfl
    refine ⟨hnotified ▸ hgrows, hdelivered, fun key hkey => hadded key ?_⟩
    rw [← hnotified]
    exact hkey

/-- A mutation of the row of the event adds keys to it that are justified. -/
theorem wp_mutateEvent {f : Event → Option Event} (hf : AddsKeys keys f)
    (hkeys : KeysJustified refuses eventId keys w) (attempts : Nat) :
    wp lifecycleHandler (amongWriters refuses eventId) (Careful refuses eventId)
      (fun _ w' => Within eventId keys w w') (fun _ _ => True) (mutateEvent eventId f attempts) w := by
  induction attempts generalizing w with
  | zero => trivial
  | succ attempts ih =>
    intro w₁ hw₁ i hi
    have hfirst : Within eventId keys w w₁ := .of_leaves hw₁
    refine ⟨careful_of_ne (c := .getRow eventId) nofun nofun i, ?_⟩
    change wp _ _ _ _ _ (Prog.bind (LifecycleAct.present _ (if i.storage = .served then _ else _)) _) w₁
    split
    · cases hrow : w₁.items.row eventId with
      | none => trivial
      | some found =>
        obtain ⟨revision, payload⟩ := found
        have hread : w₁.notified eventId = payload.registrationOpenNotifiedRecipients := by
          rw [LifecycleWorld.notified, LifecycleWorld.stored, hrow]
          rfl
        dsimp only [Prog.bind_eq, Prog.done_bind, LifecycleAct.present]
        cases hmutation : f payload with
        | none => exact hfirst
        | some payload' =>
          obtain ⟨-, hgrows, hadded⟩ := hf payload payload' hmutation
          intro w₂ hw₂ j hj
          have hsecond : Within eventId keys w w₂ := hfirst.trans (.of_leaves hw₂)
          have hupdate := within_updateItem (w := w₂) revision j
            (hw₂.notified.trans hread ▸ hgrows)
            (hw₂.notified.trans hread ▸ hadded)
          have hjustified : KeysJustified refuses eventId keys w₂ := hkeys.mono hsecond.delivered
          refine ⟨⟨nofun, hupdate.grows, hupdate.delivered, fun hw => hupdate.justified hw ?_⟩, ?_⟩
          · exact hjustified.mono hupdate.delivered
          · have hthird := hsecond.trans hupdate
            dsimp only [Prog.bind_eq, Prog.done_bind]
            cases (LifecycleCall.perform (.updateItem revision payload') j w₂).1 with
            | written => exact hthird
            | refused =>
              show wp _ _ _ _ _ (if attempts = 0 then _ else _) _
              split
              · trivial
              · exact wp_mono (ih (hkeys.mono hthird.delivered)) (fun _ _ h => hthird.trans h)
                  fun _ _ _ => trivial
            | failed => trivial
    · trivial

/-! ### The deliveries -/

/-- What a delivery of the notice of the event does, in the end. -/
def Delivers (refuses : BotIdentity → Bool) (eventId : EventId) (recipient : BotIdentity)
    (w w' : LifecycleWorld) : Prop :=
  Within eventId [] w w' ∧ (w'.Sent eventId recipient ∨ refuses recipient = true)

variable {notice : OpeningNotice}

theorem wp_sendTelegram (hid : notice.eventId = eventId)
    (hfresh : notice.recipient.key ∉ w.notified eventId) :
    wp lifecycleHandler (amongWriters refuses eventId) (Careful refuses eventId)
      (fun _ w' => Delivers refuses eventId notice.recipient w w')
      (fun _ w' => Within eventId [] w w') (sendTelegram notice) w := by
  intro w₁ hw₁ i _
  have hwithin : Within eventId [] w (LifecycleCall.perform (.sendTelegram notice) i w₁).2 :=
    .trans (.of_leaves hw₁) (within_perform_of_ne (c := .sendTelegram notice) nofun i w₁)
  refine ⟨careful_of_ne (c := .sendTelegram notice) nofun ?_ i, ?_⟩
  · intro asked hasked _
    rw [← Option.some.inj hasked, hw₁.notified]
    exact hfresh
  change wp _ _ _ _ _ (Prog.bind (LifecycleAct.present _ (i.telegram notice).body) _) _
  cases hbody : (i.telegram notice).body with
  | none => exact hwithin
  | some reply =>
    show wp _ _ _ _ _ (if reply.ok = true then _ else _) _
    split
    · next hok =>
      refine ⟨hwithin, .inl ⟨notice, ?_, hid, rfl⟩⟩
      have haccepts : telegramAccepts (i.telegram notice) = true := by
        rw [telegramAccepts, hbody]
        exact hok
      rw [LifecycleCall.delivered_sendTelegram haccepts]
      exact List.mem_append_right _ List.mem_cons_self
    · exact hwithin

theorem wp_postVK (request : VkRequest) (hid : request.notice.eventId = eventId)
    (hfresh : request.notice.recipient.key ∉ w.notified eventId) :
    wp lifecycleHandler (amongWriters refuses eventId) (Careful refuses eventId)
      (fun reply w' => Within eventId [] w w' ∧
        (reply.errorCode = none → w'.Sent eventId request.notice.recipient) ∧
        (reply.errorCode = some 901 ∨ reply.errorCode = some 902 →
          refuses request.notice.recipient = true))
      (fun _ w' => Within eventId [] w w') (postVK request) w := by
  intro w₁ hw₁ i hi
  have hwithin : Within eventId [] w (LifecycleCall.perform (.postVK request) i w₁).2 :=
    .trans (.of_leaves hw₁) (within_perform_of_ne (c := .postVK request) nofun i w₁)
  refine ⟨careful_of_ne (c := .postVK request) nofun ?_ i, ?_⟩
  · intro asked hasked _
    rw [← Option.some.inj hasked, hw₁.notified]
    exact hfresh
  change wp _ _ _ _ _ (LifecycleAct.present _ (i.vk request).body) _
  cases hbody : (i.vk request).body with
  | none => exact hwithin
  | some reply =>
    refine ⟨hwithin, fun hcode => ⟨request.notice, ?_, hid, rfl⟩, (hi.vk request reply hbody).2⟩
    have haccepts : vkAccepts (i.vk request) = true := by
      rw [vkAccepts, hbody]
      simp [hcode]
    rw [LifecycleCall.delivered_postVK haccepts]
    exact List.mem_append_right _ List.mem_cons_self

/-- What `sendVK` makes of the reply to its last request. -/
def settleVK (skip : Bool) (reply : VkReply) : LifecycleAct Unit :=
  match reply.errorCode with
  | none => return ()
  | some code =>
    if skip && (code = 901 || code = 902) then return ()
    else .fail s!"VK API error code {code}"

theorem wp_sendVK {skip : Bool} (hid : notice.eventId = eventId)
    (hfresh : notice.recipient.key ∉ w.notified eventId) :
    wp lifecycleHandler (amongWriters refuses eventId) (Careful refuses eventId)
      (fun _ w' => Delivers refuses eventId notice.recipient w w')
      (fun _ w' => Within eventId [] w w') (sendVK skip notice) w := by
  rw [sendVK]
  simp only [Prog.bind_eq, wp_bind]
  refine wp_mono (wp_postVK ⟨notice, notice.text, some notice.buttons⟩ hid hfresh) ?_
    fun _ _ h => h
  rintro reply w₁ ⟨hwithin, haccepted, hrefused⟩
  have hends {reply : VkReply} {w₂ : LifecycleWorld} (hwithin : Within eventId [] w w₂)
      (haccepted : reply.errorCode = none → w₂.Sent eventId notice.recipient)
      (hrefused : reply.errorCode = some 901 ∨ reply.errorCode = some 902 →
        refuses notice.recipient = true) :
      wp lifecycleHandler (amongWriters refuses eventId) (Careful refuses eventId)
        (fun _ w' => Delivers refuses eventId notice.recipient w w')
        (fun _ w' => Within eventId [] w w')
        (settleVK skip reply) w₂ := by
    unfold settleVK
    cases hcode : reply.errorCode with
    | none => exact ⟨hwithin, .inl (haccepted hcode)⟩
    | some code =>
      simp only []
      split
      · next hskip =>
        simp only [Bool.and_eq_true, Bool.or_eq_true, decide_eq_true_eq] at hskip
        refine ⟨hwithin, .inr (hrefused ?_)⟩
        rw [hcode]
        exact hskip.2.imp (congrArg some) (congrArg some)
      · exact hwithin
  split
  · have hsame : notice.recipient.key ∉ w₁.notified eventId := by
      intro hkey
      exact (hwithin.among _ hkey).elim hfresh List.not_mem_nil
    refine wp_mono (wp_postVK ⟨notice, notice.textKeyboard, none⟩ hid hsame) ?_ fun _ _ h => hwithin.trans h
    rintro reply w₂ ⟨hmore, haccepted, hrefused⟩
    exact hends (hwithin.trans hmore) haccepted hrefused
  · exact hends hwithin haccepted hrefused

variable {scheduler : Scheduler} {event : PlannedEvent}

theorem wp_deliverOpening (hid : event.eventId = eventId)
    (hfresh : recipient.key ∉ w.notified eventId) :
    wp lifecycleHandler (amongWriters refuses eventId) (Careful refuses eventId)
      (fun outcome w' => outcome.1 = recipient ∧ Within eventId [] w w' ∧
        (outcome.2 = true → w'.Sent eventId recipient ∨ refuses recipient = true))
      (fun _ _ => True) (deliverOpening scheduler event recipient) w := by
  have hnotice : (openingNotice event recipient).eventId = eventId := hid
  rw [deliverOpening, wp_catching, wp_bind]
  have hsend : wp lifecycleHandler (amongWriters refuses eventId) (Careful refuses eventId)
      (fun _ w' => Delivers refuses eventId recipient w w')
      (fun _ w' => Within eventId [] w w') (sendRegistrationOpening scheduler event recipient) w := by
    rw [sendRegistrationOpening]
    split
    · exact wp_sendTelegram hnotice hfresh
    · exact wp_sendVK hnotice hfresh
    · exact .refl w
  refine wp_mono hsend (fun _ w₁ hdelivers => ?_) fun _ w₁ hwithin => ?_
  · exact ⟨rfl, hdelivers.1, fun _ => hdelivers.2⟩
  · exact ⟨rfl, hwithin, nofun⟩

/-! ### The notices of one opening -/

theorem KeysJustified.append {recipient : BotIdentity} (h : KeysJustified refuses eventId keys w)
    (hrecipient : w.Sent eventId recipient ∨ refuses recipient = true) :
    KeysJustified refuses eventId (keys ++ [recipient.key]) w := by
  intro recipient' hkey
  rcases List.mem_append.mp hkey with hold | hnew
  · exact h recipient' hold
  · rw [BotIdentity.key_injective (List.mem_singleton.mp hnew)]
    exact hrecipient

theorem wp_recordDeliveries (now : Nanos) {outcomes : List (BotIdentity × Bool)}
    {notified : List String} (hnotified : KeysJustified refuses eventId notified w)
    (houtcomes : ∀ outcome ∈ outcomes, outcome.2 = true →
      w.Sent eventId outcome.1 ∨ refuses outcome.1 = true) :
    wp lifecycleHandler (amongWriters refuses eventId) (Careful refuses eventId)
      (fun _ _ => True) (fun _ _ => True) (recordDeliveries eventId now outcomes notified) w := by
  induction outcomes generalizing notified w with
  | nil => trivial
  | cons outcome outcomes ih =>
    obtain ⟨hfirst, hrest⟩ := List.forall_mem_cons.mp houtcomes
    obtain ⟨recipient, delivered⟩ := outcome
    cases delivered with
    | false => exact ih hnotified hrest
    | true =>
      have hadded := hnotified.append (hfirst rfl)
      rw [recordDeliveries]
      simp only [Prog.bind_eq, wp_bind]
      refine wp_mono (wp_mutateEvent (adds_markRegistrationDelivered _ now) hadded 4) ?_ fun _ _ h => h
      intro _ w₁ hwithin
      refine ih (hadded.mono hwithin.delivered) fun outcome houtcome hdelivered => ?_
      exact (hrest outcome houtcome hdelivered).imp_left fun hsent => hsent.mono hwithin.delivered

/-- A planned event has the stored keys of its event. -/
def PlannedEvent.Current (event : PlannedEvent) (w : LifecycleWorld) : Prop :=
  ∀ key, key ∈ event.registrationRecipients ↔ key ∈ w.notified event.eventId

theorem PlannedEvent.Current.within (h : event.Current w) (hid : event.eventId = eventId)
    (hw : Within eventId [] w w') : event.Current w' := by
  subst hid
  refine fun key => (h key).trans ⟨fun hkey => hw.grows hkey, fun hkey => ?_⟩
  exact (hw.among key hkey).resolve_right List.not_mem_nil

theorem wp_announceOpening {recipients : List BotIdentity} {now : Nanos}
    (hid : event.eventId = eventId) (hcurrent : event.Current w)
    (hw : KeysJustified refuses eventId (w.notified eventId) w) :
    wp lifecycleHandler (amongWriters refuses eventId) (Careful refuses eventId)
      (fun _ _ => True) (fun _ _ => True) (announceOpening scheduler event recipients now) w := by
  have hpending : ∀ recipient ∈ recipients.filter (·.key ∉ event.registrationRecipients),
      recipient.key ∉ event.registrationRecipients := fun recipient hrecipient =>
    of_decide_eq_true (List.mem_filter.mp hrecipient).2
  rw [announceOpening]
  simp only [Prog.bind_eq, wp_bind]
  refine wp_mono (wp_traverse_all (P := fun _ outcomes w' => Within eventId [] w w' ∧
      ∀ outcome ∈ outcomes, outcome.2 = true →
        w'.Sent eventId outcome.1 ∨ refuses outcome.1 = true)
    ?_ ⟨.refl w, fun _ houtcome => absurd houtcome List.not_mem_nil⟩)
    ?_ fun _ _ h => h
  · intro _ outcomes recipient hrecipient w₁ h
    have hfresh : recipient.key ∉ w₁.notified eventId := by
      rw [← hid]
      exact fun hkey => hpending recipient hrecipient ((hcurrent.within hid h.1 _).mpr hkey)
    refine wp_mono (wp_deliverOpening hid hfresh) ?_ fun _ _ h => h
    rintro ⟨_, delivered⟩ w₂ ⟨rfl, hwithin, hdelivered⟩
    refine ⟨h.1.trans hwithin, fun outcome houtcome hsuccess => ?_⟩
    rcases List.mem_append.mp houtcome with hold | hnew
    · exact (h.2 outcome hold hsuccess).imp_left fun hsent => hsent.mono hwithin.delivered
    · obtain rfl := List.mem_singleton.mp hnew
      exact hdelivered hsuccess
  · rintro outcomes w₁ ⟨hwithin, houtcomes⟩
    have hstored : KeysJustified refuses eventId event.registrationRecipients w₁ := by
      intro recipient' hkey
      refine (hw recipient' ?_).imp_left fun hsent => hsent.mono hwithin.delivered
      rw [← hid]
      exact (hcurrent _).mp hkey
    have hrecord := wp_recordDeliveries now hstored houtcomes
    rw [← hid] at hrecord ⊢
    refine wp_mono hrecord (fun notified w₂ _ => ?_) fun _ _ h => h
    split
    · rw [wp_bind]
      refine wp_mono (wp_mutateEvent (adds_completeRegistration now) .nil 4) ?_ fun _ _ h => h
      exact fun _ _ _ => trivial
    · trivial

theorem wp_openImminent {now : Nanos} (hid : event.eventId = eventId) :
    wp lifecycleHandler (amongWriters refuses eventId) (Careful refuses eventId)
      (fun _ w' => Within eventId [] w w') (fun _ _ => True) (openImminent event now) w := by
  subst hid
  rw [openImminent]
  split
  · exact .refl w
  · next opensAt _ =>
    split
    · exact wp_mutateEvent (adds_openRegistrationNow opensAt now) .nil 4
    · exact .refl w

/-! ### Work on other openings -/

section Others

variable {α : Type} {other : EventId}

theorem notAbout_present {Q : α → Prop} (text : String) {value : Option α} (h : ∀ a, value = some a → Q a) :
    (LifecycleAct.present text value).Makes Reads (LifecycleCall.NotAbout other) Q := by
  cases value with
  | none => trivial
  | some a => exact h a rfl

theorem notAbout_postVK (request : VkRequest) (h : request.notice.eventId ≠ other) :
    (postVK request).Makes Reads (LifecycleCall.NotAbout other) fun _ => True := by
  refine ⟨⟨nofun, ?_⟩, fun answer _ => notAbout_present _ fun _ _ => trivial⟩
  intro asked hasked
  rw [← Option.some.inj hasked]
  exact h

theorem notAbout_sendTelegram (h : notice.eventId ≠ other) :
    (sendTelegram notice).Makes Reads (LifecycleCall.NotAbout other) fun _ => True := by
  refine ⟨⟨nofun, ?_⟩, fun answer _ => ?_⟩
  · intro asked hasked
    rw [← Option.some.inj hasked]
    exact h
  · refine (notAbout_present (Q := fun _ => True) _ fun _ _ => trivial).bind fun reply _ => ?_
    show Prog.Makes _ _ _ (if reply.ok = true then _ else _)
    split <;> trivial

theorem notAbout_sendVK {skip : Bool} (h : notice.eventId ≠ other) :
    (sendVK skip notice).Makes Reads (LifecycleCall.NotAbout other) fun _ => True := by
  refine (notAbout_postVK ⟨notice, notice.text, some notice.buttons⟩ h).bind
    fun reply _ => ?_
  refine Prog.Makes.bind (Q := fun _ => True) ?_ fun reply _ => ?_
  · split
    · exact notAbout_postVK ⟨notice, notice.textKeyboard, none⟩ h
    · trivial
  · split
    · trivial
    · split <;> trivial

theorem notAbout_deliverOpening (h : event.eventId ≠ other) :
    (deliverOpening scheduler event recipient).Makes Reads (LifecycleCall.NotAbout other)
      fun _ => True := by
  have hnotice : (openingNotice event recipient).eventId ≠ other := h
  have hsend : (sendRegistrationOpening scheduler event recipient).Makes Reads
      (LifecycleCall.NotAbout other) fun _ => True := by
    rw [sendRegistrationOpening]
    split
    · exact notAbout_sendTelegram hnotice
    · exact notAbout_sendVK hnotice
    · trivial
  refine Prog.Makes.catching (hsend.bind ?_) ?_
  · exact fun _ _ => trivial
  · exact fun _ => trivial

theorem notAbout_recordDeliveries (h : eventId ≠ other) {now : Nanos}
    (outcomes : List (BotIdentity × Bool)) (notified : List String) :
    (recordDeliveries eventId now outcomes notified).Makes Reads (LifecycleCall.NotAbout other)
      fun _ => True := by
  induction outcomes generalizing notified with
  | nil => trivial
  | cons outcome outcomes ih =>
    obtain ⟨recipient, delivered⟩ := outcome
    cases delivered with
    | false => exact ih notified
    | true =>
      exact (notAbout_mutateEvent (adds_markRegistrationDelivered _ now) h 4).bind fun _ _ => ih _

theorem notAbout_announceOpening (h : event.eventId ≠ other) {recipients : List BotIdentity}
    {now : Nanos} :
    (announceOpening scheduler event recipients now).Makes Reads (LifecycleCall.NotAbout other)
      fun _ => True := by
  refine Prog.Makes.bind (Prog.Makes.traverse (R := fun _ => True)
    fun recipient _ => notAbout_deliverOpening h) fun outcomes _ => ?_
  refine (notAbout_recordDeliveries h outcomes _).bind fun notified _ => ?_
  split
  · exact (notAbout_mutateEvent (adds_completeRegistration now) h 4).bind fun _ _ => trivial
  · trivial

theorem notAbout_openImminent (h : event.eventId ≠ other) {now : Nanos} :
    (openImminent event now).Makes Reads (LifecycleCall.NotAbout other) fun _ => True := by
  rw [openImminent]
  split
  · trivial
  · split
    · exact notAbout_mutateEvent (adds_openRegistrationNow _ now) h 4
    · trivial

theorem notAbout_loadRecipients (loaded : Option (List BotIdentity)) :
    (loadRecipients loaded).Makes Reads (LifecycleCall.NotAbout other) fun _ => True := by
  cases loaded with
  | some recipients => trivial
  | none => exact ⟨⟨nofun, nofun⟩, fun _ _ => notAbout_present _ fun _ _ => trivial⟩

theorem notAbout_announceOpenings {now cutoff : Nanos} {events : List PlannedEvent}
    (h : ∀ event ∈ events, event.eventId ≠ other) (count : Nat)
    (loaded : Option (List BotIdentity)) :
    (announceOpenings scheduler now cutoff events count loaded).Makes Reads
      (LifecycleCall.NotAbout other) fun _ => True := by
  induction events generalizing count loaded with
  | nil => trivial
  | cons event events ih =>
    obtain ⟨hfirst, hrest⟩ := List.forall_mem_cons.mp h
    rw [announceOpenings]
    split
    · exact ih hrest count loaded
    · refine (notAbout_openImminent hfirst).bind fun opened _ => ?_
      split
      · refine (notAbout_loadRecipients loaded).bind fun recipients _ => ?_
        exact (notAbout_announceOpening hfirst).bind fun _ _ => ih hrest _ _
      · exact ih hrest count loaded

theorem notAbout_publishCommand (command : ScheduledCommand) :
    (publishCommand command).Makes Reads (LifecycleCall.NotAbout other) fun _ => True :=
  ⟨⟨nofun, nofun⟩, fun _ _ => notAbout_present _ fun _ _ => trivial⟩

theorem notAbout_publishScheduled {now cutoff : Nanos} (events : List PlannedEvent)
    (confirmations closings : Nat) :
    (publishScheduled scheduler now cutoff events confirmations closings).Makes Reads
      (LifecycleCall.NotAbout other) fun _ => True := by
  induction events generalizing confirmations closings with
  | nil => trivial
  | cons event events ih =>
    have hpublish {c : Bool} {command : ScheduledCommand} :
        (if c then publishCommand command else .done ()).Makes Reads (LifecycleCall.NotAbout other)
          fun _ => True := by
      split
      · exact notAbout_publishCommand command
      · trivial
    exact hpublish.bind fun _ _ => hpublish.bind fun _ _ => ih _ _

end Others

/-! ### One tick among the others -/

theorem wp_announceOpenings {now cutoff : Nanos} {events : List PlannedEvent}
    (hnodup : (events.map PlannedEvent.eventId).Nodup)
    (hcurrent : ∀ event ∈ events, event.eventId = eventId → event.Current w)
    (hw : KeysJustified refuses eventId (w.notified eventId) w) (count : Nat)
    (loaded : Option (List BotIdentity)) :
    wp lifecycleHandler (amongWriters refuses eventId) (Careful refuses eventId)
      (fun _ _ => True) (fun _ _ => True)
      (announceOpenings scheduler now cutoff events count loaded) w := by
  induction events generalizing count loaded w with
  | nil => trivial
  | cons event events ih =>
    obtain ⟨hnew, hnodup⟩ := List.nodup_cons.mp hnodup
    obtain ⟨hfirst, hrest⟩ := List.forall_mem_cons.mp hcurrent
    have later {w' : LifecycleWorld} (hwithin : Within eventId [] w w') (count : Nat)
        (loaded : Option (List BotIdentity)) :
        wp lifecycleHandler (amongWriters refuses eventId) (Careful refuses eventId)
          (fun _ _ => True) (fun _ _ => True)
          (announceOpenings scheduler now cutoff events count loaded) w' :=
      ih hnodup (fun event hevent hid => (hrest event hevent hid).within hid hwithin)
        (hwithin.justified hw .nil) count loaded
    rw [announceOpenings]
    split
    · exact later (.refl w) count loaded
    by_cases hid : event.eventId = eventId
    · -- behind the event there are others only
      have hothers : ∀ event ∈ events, event.eventId ≠ eventId := by
        rintro other hother hsame
        exact hnew (List.mem_map.mpr ⟨other, hother, hsame.trans hid.symm⟩)
      have rest (count : Nat) (loaded : Option (List BotIdentity)) {w' : LifecycleWorld} :
          wp lifecycleHandler (amongWriters refuses eventId) (Careful refuses eventId)
            (fun _ _ => True) (fun _ _ => True)
            (announceOpenings scheduler now cutoff events count loaded) w' :=
        wp_mono (wp_of_notAbout (notAbout_announceOpenings hothers count loaded))
          (fun _ _ _ => trivial) fun _ _ h => h
      simp only [Prog.bind_eq, wp_bind]
      refine wp_mono (wp_openImminent hid) (fun opened w₁ hopened => ?_) fun _ _ h => h
      split
      · rw [wp_bind]
        refine wp_mono (wp_of_notAbout (notAbout_loadRecipients loaded)) ?_ fun _ _ h => h
        rintro recipients w₂ ⟨hloaded, -⟩
        have hwithin := hopened.trans hloaded
        rw [wp_bind]
        refine wp_mono (wp_announceOpening hid ((hfirst hid).within hid hwithin)
          (hwithin.justified hw .nil)) ?_ fun _ _ h => h
        exact fun _ _ _ => rest _ _
      · exact rest count loaded
    · simp only [Prog.bind_eq, wp_bind]
      refine wp_mono (wp_of_notAbout (notAbout_openImminent hid)) ?_ fun _ _ h => h
      rintro opened w₁ ⟨hopened, -⟩
      split
      · rw [wp_bind]
        refine wp_mono (wp_of_notAbout (notAbout_loadRecipients loaded)) ?_ fun _ _ h => h
        rintro recipients w₂ ⟨hloaded, -⟩
        rw [wp_bind]
        refine wp_mono (wp_of_notAbout (notAbout_announceOpening hid)) ?_ fun _ _ h => h
        rintro _ w₃ ⟨hannounced, -⟩
        exact later ((hopened.trans hloaded).trans hannounced) _ _
      · exact later hopened count loaded

theorem wp_completeRegistrationNotificationsBefore (openedBefore completedAt : Nanos) :
    wp lifecycleHandler (amongWriters refuses eventId) (Careful refuses eventId)
      (fun _ w' => Within eventId [] w w') (fun _ _ => True)
      (completeRegistrationNotificationsBefore openedBefore completedAt) w := by
  have hrows (rows : List Event) (w₁ : LifecycleWorld) :
      wp lifecycleHandler (amongWriters refuses eventId) (Careful refuses eventId)
        (fun _ w' => Within eventId [] w₁ w') (fun _ _ => True)
        (Prog.forEach (fun payload => (mutateEvent payload.eventId
          (completeBacklog openedBefore completedAt) 4).bind fun _ => .done ()) rows) w₁ := by
    induction rows generalizing w₁ with
    | nil => exact .refl w₁
    | cons payload rows ih =>
      have hfirst : wp lifecycleHandler (amongWriters refuses eventId) (Careful refuses eventId)
          (fun _ w' => Within eventId [] w₁ w') (fun _ _ => True)
          (mutateEvent payload.eventId (completeBacklog openedBefore completedAt) 4) w₁ := by
        by_cases hid : payload.eventId = eventId
        · rw [hid]
          exact wp_mutateEvent (adds_completeBacklog openedBefore completedAt) .nil 4
        · refine wp_mono (wp_of_notAbout (notAbout_mutateEvent (adds_completeBacklog _ _) hid 4)) ?_
            fun _ _ h => h
          exact fun _ _ h => h.1
      rw [Prog.forEach, wp_bind, wp_bind]
      refine wp_mono hfirst (fun _ w₂ hwithin => ?_) fun _ _ h => h
      rw [wp_done]
      exact wp_mono (ih w₂) (fun _ _ h => hwithin.trans h) fun _ _ h => h
  intro w₁ hw₁ i _
  refine ⟨careful_of_ne (c := .scanRows) nofun nofun i, ?_⟩
  have hfirst : Within eventId [] w w₁ := .of_leaves hw₁
  change wp _ _ _ _ _ (Prog.bind (LifecycleAct.present _ (if i.storage = .served then _ else _)) _) w₁
  split
  · exact wp_mono (hrows _ w₁) (fun _ _ h => hfirst.trans h) fun _ _ h => h
  · trivial

/-- The events that `listBefore` takes from a scan. -/
def dueEvents (dueBefore : Nanos) (limit : Nat) (payloads : List Event) : List PlannedEvent :=
  (sortBy PlannedEvent.eventId ((payloads.map plannedEvent).filter (·.due dueBefore))).take limit

theorem mem_of_mem_dueEvents {dueBefore : Nanos} {limit : Nat} {payloads : List Event}
    (h : event ∈ dueEvents dueBefore limit payloads) :
    ∃ payload ∈ payloads, plannedEvent payload = event := by
  have hsorted := mem_sortBy.mp (List.mem_of_mem_take h)
  exact List.mem_map.mp (List.mem_filter.mp hsorted).1

theorem nodup_dueEvents {dueBefore : Nanos} {limit : Nat} {payloads : List Event}
    (h : (payloads.map Event.eventId).Nodup) :
    ((dueEvents dueBefore limit payloads).map PlannedEvent.eventId).Nodup := by
  have hplanned : ((payloads.map plannedEvent).map PlannedEvent.eventId).Nodup := by
    rw [List.map_map]
    exact h
  have hdue : (((payloads.map plannedEvent).filter (·.due dueBefore)).map
      PlannedEvent.eventId).Nodup := hplanned.sublist (List.filter_sublist.map _)
  have hsorted := ((sortBy_perm PlannedEvent.eventId _).map PlannedEvent.eventId).nodup_iff.mpr hdue
  exact hsorted.sublist ((List.take_sublist _ _).map _)

theorem current_of_mem_payloads (h : payload ∈ w.items.payloads) :
    (plannedEvent payload).Current w := by
  obtain ⟨revision, hrow⟩ := EventItems.mem_payloads.mp h
  intro key
  rw [LifecycleWorld.notified, LifecycleWorld.stored,
    show (plannedEvent payload).eventId = payload.eventId from rfl, hrow]
  rfl

theorem wp_run {now : Nanos} (hw : KeysJustified refuses eventId (w.notified eventId) w) :
    wp lifecycleHandler (amongWriters refuses eventId) (Careful refuses eventId)
      (fun _ _ => True) (fun _ _ => True) (scheduler.run now) w := by
  have hlist {w₁ : LifecycleWorld} (hw₁ : Within eventId [] w w₁) :
      wp lifecycleHandler (amongWriters refuses eventId) (Careful refuses eventId)
        (fun events w₂ => (events.map PlannedEvent.eventId).Nodup ∧ Within eventId [] w w₂ ∧
          ∀ event ∈ events, event.Current w₂)
        (fun _ _ => True) (listBefore (dispatchCutoff now) (3 * perActionLimit)) w₁ := by
    intro w₂ hw₂ i _
    refine ⟨careful_of_ne (c := .scanRows) nofun nofun i, ?_⟩
    change wp _ _ _ _ _ (Prog.bind (LifecycleAct.present _ (if i.storage = .served then _ else _)) _) w₂
    split
    · refine ⟨nodup_dueEvents EventItems.nodup_payloads, hw₁.trans (.of_leaves hw₂), ?_⟩
      intro event hevent
      obtain ⟨payload, hpayload, rfl⟩ := mem_of_mem_dueEvents hevent
      exact current_of_mem_payloads hpayload
    · trivial
  have hrest {w₁ : LifecycleWorld} (hw₁ : Within eventId [] w w₁) :
      wp lifecycleHandler (amongWriters refuses eventId) (Careful refuses eventId)
        (fun _ _ => True) (fun _ _ => True)
        ((listBefore (dispatchCutoff now) (3 * perActionLimit)).bind fun events =>
          (announceOpenings scheduler now (dispatchCutoff now) events 0 none).bind fun _ =>
            publishScheduled scheduler now (dispatchCutoff now) events 0 0) w₁ := by
    rw [wp_bind]
    refine wp_mono (hlist hw₁) ?_ fun _ _ h => h
    rintro events w₂ ⟨hnodup, hwithin, hcurrent⟩
    rw [wp_bind]
    refine wp_mono (wp_announceOpenings hnodup (fun event hevent _ => hcurrent event hevent)
      (hwithin.justified hw .nil) 0 none) ?_ fun _ _ h => h
    intro _ w₃ _
    refine wp_mono (wp_of_notAbout (notAbout_publishScheduled events 0 0)) ?_ fun _ _ h => h
    exact fun _ _ _ => trivial
  rw [Scheduler.run]
  split
  · exact hrest (.refl w)
  · next openedBefore _ =>
    simp only [Prog.bind_eq, wp_bind]
    refine wp_mono (wp_completeRegistrationNotificationsBefore openedBefore now) ?_ fun _ _ h => h
    exact fun _ w₁ hwithin => by simpa only [wp_bind] using hrest hwithin

/-- In every tick, whatever the others do in between and the messengers answer, every call is
careful. -/
theorem wp_tick (hw : KeysJustified refuses eventId (w.notified eventId) w) :
    wp lifecycleHandler (amongWriters refuses eventId) (Careful refuses eventId)
      (fun _ _ => True) (fun _ _ => True) scheduler.tick w := by
  intro w₁ hw₁ i _
  have hwithin : Within eventId [] w w₁ := .of_leaves hw₁
  exact ⟨careful_of_ne (c := .now) nofun nofun i, wp_run (hwithin.justified hw .nil)⟩

end LarpBot
