import LarpBot.Application.Calls

/-!
# What an event call does to an event

A write of the event repository amends the event that it names, or leaves all events as they are.
`EventCall.amend` is the amendment of each write, and `EventCall.mem_perform` the one place where
the methods of the repository are unfolded.
-/

namespace LarpBot

open Atomic

namespace EventCall

/-- The event that a write is about. -/
def about : EventCall → Option EventId
  | get _ | getBySignupToken _ | listPage _ _ _ => none
  | setStatus e _ | openScheduledConfirmation e _ _ | openConfirmation e _ | setPlayerAmount e _
  | setRegistrationQuestion e _ | setDetails e _ _ | markRegistrationsMigrated e _
  | setPublicTable e _ _ _ | setGoogleTableLinks e _ _ | archive e _ | unarchive e _ | delete e
  | appendConfirmedNotification e _ _ | setReservePromotion e _ _
  | markReservePromotionDelivered e _ | setConfirmedLinkPromotion e _ _
  | markConfirmedLinkPromotionDelivered e _ | setParticipantRemoval e _ _
  | addParticipantRemovalKeys e _ _ | markParticipantRemovalDelivered e _ _
  | startScheduledClose e _ | completeScheduledCloseActions e _
  | markScheduledCloseNotificationDelivered e _ _ | completeScheduledCloseNotifications e _
  | setPassTable e _ => some e

/-- What a write makes of the event, if it changes it. -/
def amend (now : Time) : EventCall → Event → Event
  | setStatus _ status, event => { event with status := status, updatedAt := now }
  | openScheduledConfirmation _ _ _, event =>
    { event with status := .confirmationOpen, confirmationOpenAt := none, updatedAt := now }
  | openConfirmation _ deadline, event =>
    { event with
      status := .confirmationOpen, confirmationOpenAt := none
      confirmationDeadline := some deadline, updatedAt := now }
  | setPlayerAmount _ amount, event => { event with playerAmount := amount, updatedAt := now }
  | setRegistrationQuestion _ question, event =>
    { event with
      registrationQuestion := some question
      playerAmount := (question.options.map AnswerOption.playerAmount).sum
      updatedAt := now }
  | setDetails _ name gameDate, event =>
    { event with name := name, gameDate := some gameDate, updatedAt := now }
  | markRegistrationsMigrated _ at', event =>
    { event with registrationsMigratedAt := some at', updatedAt := at' }
  | setPublicTable _ path url google, event =>
    { event.withPublicTable path url google with updatedAt := now }
  | setGoogleTableLinks _ master pub, event =>
    { event with
      masterTableGoogleUrl := Events.orElse master event.masterTableGoogleUrl
      publicTableGoogleUrl := Events.orElse pub event.publicTableGoogleUrl
      updatedAt := now }
  | archive _ at', event =>
    { event with status := .closed, archivedAt := some at', updatedAt := at' }
  | unarchive _ at', event => { event with archivedAt := none, updatedAt := at' }
  | appendConfirmedNotification _ text op, event =>
    { event with
      confirmedNotifications := event.confirmedNotifications ++ [text]
      lastConfirmedNotificationOperationId := some op
      updatedAt := now }
  | setReservePromotion _ op key, event =>
    { event with
      lastReservePromotionOperationId := some op
      lastReservePromotionParticipantKey := key
      updatedAt := now }
  | markReservePromotionDelivered _ op, event =>
    { event with lastReservePromotionDeliveredOperationId := some op, updatedAt := now }
  | setConfirmedLinkPromotion _ op key, event =>
    { event with
      lastConfirmedLinkPromotionOperationId := some op
      lastConfirmedLinkPromotionParticipantKey := key
      updatedAt := now }
  | markConfirmedLinkPromotionDelivered _ op, event =>
    { event with lastConfirmedLinkPromotionDeliveredOperationId := some op, updatedAt := now }
  | setParticipantRemoval _ op keys, event =>
    if event.lastParticipantRemovalOperationId = some op then event
    else { event with
      lastParticipantRemovalOperationId := some op
      participantRemovalKeys := keys
      participantRemovalNotifiedKeys := []
      updatedAt := now }
  | addParticipantRemovalKeys _ op keys, event =>
    let added := Events.addedKeys event.participantRemovalKeys keys
    if event.lastParticipantRemovalOperationId = some op ∧ added ≠ [] then
      { event with
        participantRemovalKeys := event.participantRemovalKeys ++ added, updatedAt := now }
    else event
  | markParticipantRemovalDelivered _ op key, event =>
    if event.lastParticipantRemovalOperationId = some op ∧
        key ∉ event.participantRemovalNotifiedKeys then
      { event with
        participantRemovalNotifiedKeys := event.participantRemovalNotifiedKeys ++ [key]
        updatedAt := now }
    else event
  | startScheduledClose _ op, event =>
    { event with status := .closed, scheduledCloseOperationId := some op, updatedAt := now }
  | completeScheduledCloseActions _ _, event =>
    { event with status := .closed, archivedAt := some now, updatedAt := now }
  | markScheduledCloseNotificationDelivered _ op recipient, event =>
    if event.scheduledCloseOperationId = some op ∧
        recipient ∉ event.scheduledCloseNotifiedRecipients then
      { event with
        scheduledCloseNotifiedRecipients := event.scheduledCloseNotifiedRecipients ++ [recipient]
        updatedAt := now }
    else event
  | completeScheduledCloseNotifications _ op, event =>
    if event.scheduledCloseOperationId = some op ∧ event.scheduledCloseCompletedAt.isNone then
      { event with scheduledCloseCompletedAt := some now, updatedAt := now }
    else event
  | setPassTable _ path, event =>
    { event with passTableResourcePath := some path, updatedAt := now }
  | get _, event | getBySignupToken _, event | listPage _ _ _, event | delete _, event => event

/-- What a write asks of the event, where an automatic close depends on it. -/
def guard : EventCall → Event → Prop
  | archive _ _, event => event.archivedAt = none
  | startScheduledClose _ _, event =>
    event.archivedAt = none ∧ event.scheduledCloseOperationId = none
  | completeScheduledCloseActions _ op, event => event.scheduledCloseOperationId = some op
  | _, _ => True

@[simp] theorem eventId_amend {now : Time} (c : EventCall) (event : Event) :
    (c.amend now event).eventId = event.eventId := by
  cases c with
  | setParticipantRemoval | addParticipantRemovalKeys | markParticipantRemovalDelivered
  | markScheduledCloseNotificationDelivered | completeScheduledCloseNotifications =>
    simp only [amend]
    split <;> rfl
  | _ => rfl

/-- No write of the worker touches the invite link of a chat. -/
@[simp] theorem telegramChatInviteLink_amend {now : Time} (c : EventCall) (event : Event) :
    (c.amend now event).telegramChatInviteLink = event.telegramChatInviteLink := by
  cases c with
  | setParticipantRemoval | addParticipantRemovalKeys | markParticipantRemovalDelivered
  | markScheduledCloseNotificationDelivered | completeScheduledCloseNotifications =>
    simp only [amend]
    split <;> rfl
  | _ => rfl

variable {c : EventCall} {now : Time} {t : Events} {event' : Event} {e : EventId}
  {f : Event → Event}

/-- The event is an old one, or what `f` makes of the old event of that identifier, which passed a
test. -/
def Amended (t : Events) (e : EventId) (P : Event → Prop) (f : Event → Event) (event' : Event) :
    Prop :=
  event' ∈ t.rows ∨ ∃ event ∈ t.rows, event.eventId = e ∧ P event ∧ event' = f event

theorem amended_modify {P : Event → Prop} (hf : ∀ event, (f event).eventId = event.eventId)
    (h : event' ∈ (t.modify e f hf).rows) (hP : ∀ event, t.get e = some event → P event) :
    Amended t e P f event' := by
  obtain ⟨event, hevent, ⟨hid, rfl⟩ | ⟨-, rfl⟩⟩ := Table.mem_modify h
  · refine .inr ⟨event, hevent, hid, hP event ?_, rfl⟩
    rw [← hid]
    exact Table.find?_key hevent
  · exact .inl hevent

theorem amended_existing {hf : ∀ event, (f event).eventId = event.eventId}
    (h : event' ∈ (t.existing e f hf).2.rows) : Amended t e (fun _ => True) f event' := by
  unfold Events.existing at h
  split at h
  · exact .inl h
  · exact amended_modify hf h fun _ _ => trivial

theorem amended_when {hf : ∀ event, (f event).eventId = event.eventId} {p : Event → Bool}
    (h : event' ∈ (t.when e p f hf).2.rows) : Amended t e (p · = true) f event' := by
  unfold Events.when at h
  split at h
  · exact .inl h
  · next hget =>
    split at h
    · next hp =>
      refine amended_modify hf h fun event hevent => ?_
      rw [hget] at hevent
      exact Option.some.inj hevent ▸ hp
    · exact .inl h

theorem amended_always {hf : ∀ event, (f event).eventId = event.eventId} {p : Event → Bool}
    (h : event' ∈ (t.always e p f hf).2.rows) : Amended t e (fun _ => True) f event' := by
  unfold Events.always at h
  split at h
  · exact .inl h
  · exact amended_modify hf h fun _ _ => trivial

/-- A close is started on an open game that has none under way. -/
theorem amended_start {op : OperationId} (h : event' ∈ (t.startScheduledClose now e op).2.rows) :
    Amended t e (fun event => event.archivedAt = none ∧ event.scheduledCloseOperationId = none)
      (amend now (.startScheduledClose e op)) event' := by
  unfold Events.startScheduledClose at h
  split at h
  · exact .inl h
  · next hget =>
    split at h
    · exact .inl h
    · split at h
      · exact .inl h
      · next hopen =>
        refine amended_modify (fun _ => rfl) h fun event hevent => ?_
        rw [hget] at hevent
        obtain rfl := Option.some.inj hevent
        simpa using hopen

/-- The game is archived by the operation that has closed it. -/
theorem amended_complete {op : OperationId}
    (h : event' ∈ (t.completeScheduledCloseActions now e op).2.rows) :
    Amended t e (fun event => event.scheduledCloseOperationId = some op)
      (amend now (.completeScheduledCloseActions e op)) event' := by
  unfold Events.completeScheduledCloseActions at h
  split at h
  · exact .inl h
  · next hget =>
    split at h
    · exact .inl h
    · next hstarted =>
      split at h
      · exact .inl h
      · refine amended_modify (fun _ => rfl) h fun event hevent => ?_
        rw [hget] at hevent
        exact Option.some.inj hevent ▸ not_not.mp hstarted

/-- Every event after a call is an old one or an amended one. -/
theorem mem_perform (h : event' ∈ (c.perform now t).2.rows) :
    event' ∈ t.rows ∨ ∃ event ∈ t.rows, c.about = some event.eventId ∧ c.guard event ∧
      event' = c.amend now event := by
  have guarded {e : EventId} {P : Event → Prop} (hc : c.about = some e)
      (hP : ∀ event, P event → c.guard event) (h : Amended t e P (c.amend now) event') :
      event' ∈ t.rows ∨ ∃ event ∈ t.rows, c.about = some event.eventId ∧ c.guard event ∧
        event' = c.amend now event :=
    h.imp_right fun ⟨event, hevent, hid, hp, heq⟩ =>
      ⟨event, hevent, hid ▸ hc, hP event hp, heq⟩
  cases c with
  | get => exact .inl h
  | getBySignupToken => exact .inl h
  | listPage => exact .inl h
  | setStatus e => exact guarded rfl (fun _ _ => trivial) (amended_always h)
  | openScheduledConfirmation e => exact guarded rfl (fun _ _ => trivial) (amended_when h)
  | openConfirmation e => exact guarded rfl (fun _ _ => trivial) (amended_always h)
  | setPlayerAmount e => exact guarded rfl (fun _ _ => trivial) (amended_always h)
  | setRegistrationQuestion e => exact guarded rfl (fun _ _ => trivial) (amended_existing h)
  | setDetails e => exact guarded rfl (fun _ _ => trivial) (amended_when h)
  | markRegistrationsMigrated e => exact guarded rfl (fun _ _ => trivial) (amended_existing h)
  | setPublicTable e => exact guarded rfl (fun _ _ => trivial) (amended_when h)
  | setGoogleTableLinks e => exact guarded rfl (fun _ _ => trivial) (amended_always h)
  | archive e => exact guarded rfl (fun _ hp => Option.isNone_iff_eq_none.mp hp) (amended_when h)
  | unarchive e => exact guarded rfl (fun _ _ => trivial) (amended_when h)
  | delete e => exact .inl (List.mem_filter.mp h).1
  | appendConfirmedNotification e => exact guarded rfl (fun _ _ => trivial) (amended_when h)
  | setReservePromotion e => exact guarded rfl (fun _ _ => trivial) (amended_existing h)
  | markReservePromotionDelivered e => exact guarded rfl (fun _ _ => trivial) (amended_existing h)
  | setConfirmedLinkPromotion e => exact guarded rfl (fun _ _ => trivial) (amended_existing h)
  | markConfirmedLinkPromotionDelivered e => exact guarded rfl (fun _ _ => trivial) (amended_existing h)
  | setParticipantRemoval e => exact guarded rfl (fun _ _ => trivial) (amended_existing h)
  | addParticipantRemovalKeys e => exact guarded rfl (fun _ _ => trivial) (amended_existing h)
  | markParticipantRemovalDelivered e => exact guarded rfl (fun _ _ => trivial) (amended_existing h)
  | startScheduledClose e => exact guarded rfl (fun _ hp => hp) (amended_start h)
  | completeScheduledCloseActions e => exact guarded rfl (fun _ hp => hp) (amended_complete h)
  | markScheduledCloseNotificationDelivered e => exact guarded rfl (fun _ _ => trivial) (amended_existing h)
  | completeScheduledCloseNotifications e => exact guarded rfl (fun _ _ => trivial) (amended_existing h)
  | setPassTable e => exact guarded rfl (fun _ _ => trivial) (amended_when h)

end EventCall

end LarpBot
