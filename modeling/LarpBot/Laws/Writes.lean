import LarpBot.Laws.Conduct

/-!
# The writes of a command

Between them the branches of `apply` write registrations and events in some thirty ways, but each
write goes out under the operation id of its command, to the event of the command, and only from the
operation that it belongs to (`MayWrite` for the registrations, `MayRecord` for the events). The
writes to another event are those of a confirmation that gives up a participation there. Where the
service has checked a write against the event that it read, the check is part of what is said.

This is read off the text of the services for every answer that their calls may get, so it holds in
every interleaving. What the other services of the worker write is a hypothesis.
-/

namespace LarpBot

open Atomic Act
open Prog (Makes)

/-- The calls that write no registration, but for the import of a legal workbook. -/
def Call.LeavesRegistrations (legal : Legal) (c : Call) : Prop :=
  match c with
  | .registrations _ => c.IsMaintenance legal
  | _ => True

/-- The registration writes that a command may make. -/
def OrderedRegistrationCommand.MayWrite (legal : Legal) (command : OrderedRegistrationCommand)
    (c : Call) : Prop :=
  let own (operation : Operation) (eventId : EventId) (operationId : OperationId) : Prop :=
    command.operation = operation ∧ eventId = command.eventId ∧ operationId = command.operationId
  match c with
  | .registrations c => match c with
    | .enlist e a => own .enlist e a.operationId ∧ command.participantKey = some a.participantKey
    | .updateAnswer e op _ _ => own .updateAnswer e op
    | .updateProfile e op key _ => own .updateProfile e op ∧ command.participantKey = some key
    | .confirm e op _ _ replaced _ => own .confirm e op ∧ replaced ≠ some e
    | .confirmLinked e op _ _ replaced _ => own .confirm e op ∧ replaced ≠ some e
    | .updateCharacterWish e op _ _ => own .updateCharacterWish e op
    | .updateLinkedCharacterWish e op _ _ => own .updateCharacterWish e op
    | .updateCoPlayerWish e op _ _ => own .updateCoPlayerWish e op
    | .updateLinkedCoPlayerWish e op _ _ => own .updateCoPlayerWish e op
    | .cancel e op _ => own .cancel e op
    | .cancelLinked e op _ => own .cancel e op
    | .swapQueuePositions e a => own .promoteReserveParticipant e a.operationId
    | .siftWaitingToEnd e => command.operation = .removeWaitingParticipants ∧ e = command.eventId
    | .remove e key =>
      command.operation = .removeParticipant ∧ e = command.eventId ∧
        command.participantKey = some key
    | .deleteForEvent e => command.operation = .deleteEvent ∧ e = command.eventId
    | c => (Call.registrations c).IsMaintenance legal
  | _ => True

/-- The option identifiers and amounts of a question, which no update may change. -/
def RegistrationQuestion.shape (question : RegistrationQuestion) : List (String × Nat) :=
  question.options.map fun option => (option.optionId, option.playerAmount)

/-- The answers that an event takes. -/
def Event.Accepts (event : Event) (answerId : Option String) : Prop :=
  match event.registrationQuestion with
  | some question => (question.option answerId).isSome
  | none => answerId = none

/-- The commands that free a place in an event. -/
def OrderedRegistrationCommand.Frees (command : OrderedRegistrationCommand) (eventId : EventId) :
    Prop :=
  eventId = command.eventId ∧
    command.operation ∈ [Operation.cancel, .removeParticipant, .updateAnswer] ∨
  command.operation = .confirm

/-- The event writes that a command may make. -/
def OrderedRegistrationCommand.MayRecord (legal : Legal) (command : OrderedRegistrationCommand)
    (c : EventCall) : Prop :=
  let own (operation : Operation) (eventId : EventId) : Prop :=
    command.operation = operation ∧ eventId = command.eventId
  match c with
  | .setStatus e _ => own .openRegistration e ∨ own .closeEvent e
  | .openScheduledConfirmation e _ _ => own .scheduledOpenConfirmation e
  | .openConfirmation e _ => own .openConfirmation e
  | .setPlayerAmount e _ => own .updatePlayerAmount e ∧
      ∃ event, legal.stored event ∧ event.eventId = e ∧ event.registrationQuestion = none
  | .setRegistrationQuestion e question => own .updateQuestion e ∧
      ∃ event current, legal.stored event ∧ event.eventId = e ∧
        event.registrationQuestion = some current ∧ current.shape = question.shape
  | .setDetails e _ _ => own .updateEventDetails e
  | .archive e _ => own .archiveEvent e
  | .unarchive e _ => own .unarchiveEvent e
  | .delete e => own .deleteEvent e
  | .appendConfirmedNotification e _ op =>
    own .sendConfirmedNotification e ∧ op = command.operationId
  | .setReservePromotion e op _ | .setConfirmedLinkPromotion e op _ =>
    command.Frees e ∧ op = command.operationId
  | .setParticipantRemoval e op _ | .addParticipantRemovalKeys e op _ =>
    command.operation ∈ [Operation.updatePlayerAmount, .removeWaitingParticipants,
      .promoteReserveParticipant, .cancel, .removeParticipant] ∧
    e = command.eventId ∧ op = command.operationId
  | .markReservePromotionDelivered _ op | .markConfirmedLinkPromotionDelivered _ op
  | .markParticipantRemovalDelivered _ op _ => op = command.operationId
  | .get _ | .getBySignupToken _ | .listPage _ _ _ | .markRegistrationsMigrated _ _
  | .setPublicTable _ _ _ _ | .setGoogleTableLinks _ _ _ => True
  | .startScheduledClose _ _ | .completeScheduledCloseActions _ _
  | .markScheduledCloseNotificationDelivered _ _ _ | .completeScheduledCloseNotifications _ _
  | .setPassTable _ _ => False

/-- The calls that a command may make. -/
def OrderedRegistrationCommand.MayCall (legal : Legal) (command : OrderedRegistrationCommand)
    (c : Call) : Prop :=
  match c with
  | .events c => command.MayRecord legal c
  | .outside (.publish _) => False
  | .registrations (.enlist e a) => command.MayWrite legal c ∧
      ∃ event, legal.stored event ∧ event.eventId = e ∧ event.Accepts a.answerId
  | .registrations (.updateAnswer e _ _ answerId) => command.MayWrite legal c ∧
      ∃ event, legal.stored event ∧ event.eventId = e ∧ event.registrationQuestion.isSome ∧
        event.Accepts (some answerId)
  | c => command.MayWrite legal c

variable {legal : Legal} {command : OrderedRegistrationCommand} {α : Type} {p : Act α} {Q : α → Prop}

theorem Call.LeavesRegistrations.mayWrite {c : Call} (hc : c.LeavesRegistrations legal) :
    command.MayWrite legal c := by
  cases c with
  | registrations c => cases c <;> first | exact hc | exact hc.elim
  | _ => trivial

theorem OrderedRegistrationCommand.MayCall.mayWrite {c : Call} (hc : command.MayCall legal c) :
    command.MayWrite legal c := by
  cases c with
  | events c => trivial
  | registrations c => cases c <;> first | exact hc | exact hc.1
  | _ => trivial

theorem Call.IsMaintenance.mayCall {c : Call} (hc : c.IsMaintenance legal) :
    command.MayCall legal c := by
  cases c with
  | events c => cases c <;> trivial
  | registrations c => cases c <;> first | exact hc | exact hc.elim
  | outside c => cases c <;> trivial
  | _ => trivial

theorem writes_of_maintenance (hp : makes legal (Call.IsMaintenance legal) Q p) :
    makes legal (command.MayCall legal) Q p :=
  makes_mono hp fun _ => Call.IsMaintenance.mayCall

theorem writes_of_reads (hp : makes legal Call.IsRead Q p) :
    makes legal (command.MayCall legal) Q p :=
  writes_of_maintenance (maintenance_of_reads hp)

variable (bot : Deployment)

/-! ## Operations on the event -/

theorem writes_scheduledOpenConfirmation (hop : command.operation = .scheduledOpenConfirmation)
    (event : Event) (hid : event.eventId = command.eventId) (deadline : Time) :
    makes legal (command.MayCall legal) (fun _ => True)
      (scheduledOpenConfirmation bot command event deadline) := by
  unfold scheduledOpenConfirmation
  split
  · trivial
  · split
    · split
      · trivial
      · dsimp only
        split
        · trivial
        · refine makes_call ⟨hop, hid⟩ fun opened _ => ?_
          cases opened <;> trivial
    · trivial

theorem writes_unarchiveEvent (hop : command.operation = .unarchiveEvent) (event : Event)
    (hid : event.eventId = command.eventId) :
    makes legal (command.MayCall legal) (fun _ => True) (unarchiveEvent bot command event) := by
  refine (writes_of_reads (reads_requireAdmin command)).bind fun _ _ => ?_
  split
  · exact (writes_of_maintenance (maintenance_refreshDailyPassTable bot _)).bind fun _ _ => trivial
  · refine makes_call trivial fun _ _ => makes_call ⟨hop, hid⟩ fun _ _ => ?_
    exact (writes_of_maintenance (maintenance_refreshDailyPassTable bot _)).bind fun _ _ => trivial

theorem writes_deleteEvent (hop : command.operation = .deleteEvent) (event : Event)
    (hid : event.eventId = command.eventId) :
    makes legal (command.MayCall legal) (fun _ => True) (deleteEvent command event) := by
  refine (writes_of_reads (reads_requireAdmin command)).bind fun _ _ => ?_
  refine (makes_refuseIf _ _).bind fun _ _ => ?_
  refine Makes.bind (Q := fun _ => True) ?_ fun _ _ => trivial
  refine (Makes.forEach (R := fun _ => True) fun path _ =>
    makes_call trivial fun _ _ => makes_any (makes_present _ _)).bind fun _ _ => ?_
  refine makes_call trivial fun _ _ => (makes_present _ _).bind fun _ _ => ?_
  refine makes_call trivial fun _ _ => (makes_present _ _).bind fun _ _ => ?_
  exact makes_call ⟨hop, hid⟩ fun _ _ => makes_call ⟨hop, hid⟩ fun _ _ => trivial

theorem maintenance_applyToArchived (event : Event) :
    makes legal (Call.IsMaintenance legal) (fun _ => True)
      (applyToArchived bot command event) := by
  unfold applyToArchived
  split
  · exact (maintenance_refreshDailyPassTable bot _).bind fun _ _ => trivial
  all_goals trivial

theorem writes_updateEventDetails (hop : command.operation = .updateEventDetails) (event : Event)
    (hid : event.eventId = command.eventId) (payload : EventDetailsPayload) :
    makes legal (command.MayCall legal) (fun _ => True)
      (updateEventDetails bot event payload) := by
  refine (makes_refuseIf _ _).bind fun _ _ => makes_call ⟨hop, hid⟩ fun _ _ => ?_
  refine (writes_of_maintenance (maintenance_refreshDailyPassTable bot _)).bind fun _ _ => ?_
  exact (makes_whenever (writes_of_maintenance (maintenance_refreshDailyPassTable bot _))).bind
    fun _ _ => trivial

theorem writes_updateQuestion (hop : command.operation = .updateQuestion) {event : Event}
    (hid : event.eventId = command.eventId) (hstored : legal.stored event)
    (question : RegistrationQuestion) :
    makes legal (command.MayCall legal) (fun _ => True) (updateQuestion bot event question) := by
  unfold updateQuestion
  split
  · trivial
  · next current hcurrent =>
    refine (makes_refuseIf _ _).bind fun _ hshape => ?_
    have hsame : current.shape = question.shape := by
      simpa [RegistrationQuestion.shape] using hshape
    refine makes_call ⟨⟨hop, hid⟩, event, current, hstored, rfl, hcurrent, hsame⟩ fun _ _ => ?_
    refine (makes_value _).bind fun _ _ => ?_
    exact (writes_of_maintenance (maintenance_refresh bot _)).bind fun _ _ => trivial

theorem writes_updatePlayerAmount (hop : command.operation = .updatePlayerAmount) {event : Event}
    (hid : event.eventId = command.eventId) (hstored : legal.stored event) (playerAmount : Nat) :
    makes legal (command.MayCall legal) (fun _ => True)
      (updatePlayerAmount bot command event playerAmount) := by
  refine (makes_refuseIf _ _).bind fun _ hquestion => ?_
  have hnone : event.registrationQuestion = none := by simpa using hquestion
  refine (writes_of_maintenance (maintenance_ensureMigrated bot hstored)).bind fun event' h => ?_
  have hid' : event'.eventId = command.eventId := h.id.trans hid
  have hremoval : command.operation ∈ [Operation.updatePlayerAmount, .removeWaitingParticipants,
      .promoteReserveParticipant, .cancel, .removeParticipant] := by simp [hop]
  refine (makes_whenever ?_).bind fun _ _ =>
    makes_call ⟨⟨hop, hid'⟩, event, hstored, h.id.symm, hnone⟩ fun _ _ => ?_
  · refine Makes.bind (Q := fun _ => True) ?_ fun keys _ =>
      makes_call ⟨hremoval, hid', rfl⟩ fun _ _ => makes_any (makes_value _)
    split
    · exact makes_call trivial fun _ _ => trivial
    · trivial
  · exact (writes_of_maintenance (maintenance_refresh bot _)).bind fun _ _ => trivial

theorem writes_archiveEvent (hop : command.operation = .archiveEvent) (event : Event)
    (hid : event.eventId = command.eventId) :
    makes legal (command.MayCall legal) (fun _ => True) (archiveEvent bot event) := by
  refine Makes.bind (Q := fun _ => True) ?_ fun _ _ => ?_
  · exact makes_call trivial fun _ _ => makes_call ⟨hop, hid⟩ fun _ _ => trivial
  · exact (writes_of_maintenance (maintenance_refreshDailyPassTable bot _)).bind fun _ _ => trivial

/-! ## Operations on the roster -/

theorem writes_recordMoves (hop : command.operation = .removeWaitingParticipants ∨
      command.operation = .promoteReserveParticipant) (event : Event)
    (hid : event.eventId = command.eventId) (moves : List String) :
    makes legal (command.MayCall legal) (fun _ => True) (recordMoves command event moves) := by
  have hremoval : command.operation ∈ [Operation.updatePlayerAmount, .removeWaitingParticipants,
      .promoteReserveParticipant, .cancel, .removeParticipant] := by
    rcases hop with hop | hop <;> simp [hop]
  unfold recordMoves
  split <;> exact makes_call ⟨hremoval, hid, rfl⟩ fun _ _ => makes_any (makes_value _)

theorem writes_siftWaiting (hop : command.operation = .removeWaitingParticipants) (event : Event)
    (hid : event.eventId = command.eventId) (active : List Registration) :
    makes legal (command.MayCall legal) (fun _ => True) (siftWaiting command event active) := by
  unfold siftWaiting
  split
  · refine (writes_recordMoves (.inl hop) event hid _).bind fun _ _ => ?_
    exact makes_call ⟨hop, hid⟩ fun _ _ => makes_any (makes_value _)
  · exact makes_whenever (makes_call ⟨by simp [hop], hid, rfl⟩ fun _ _ => makes_any (makes_value _))

theorem writes_removeWaitingParticipants (hop : command.operation = .removeWaitingParticipants)
    (event : Event) (hid : event.eventId = command.eventId) :
    makes legal (command.MayCall legal) (fun _ => True)
      (removeWaitingParticipants bot command event) := by
  refine makes_call trivial fun rows _ => ?_
  refine (writes_siftWaiting hop event hid _).bind fun _ _ => ?_
  refine (writes_of_maintenance (maintenance_refreshWithRows bot event)).bind fun _ _ => ?_
  exact makes_call trivial fun _ _ => trivial

theorem writes_promoteReserve (hop : command.operation = .promoteReserveParticipant)
    (event : Event) (hid : event.eventId = command.eventId) (queue : List Registration)
    (capacity : Nat) (key : ParticipantKey) :
    makes legal (command.MayCall legal) (fun _ => True)
      (promoteReserve bot command event queue capacity key) := by
  unfold promoteReserve
  split
  · trivial
  · refine (makes_refuseIf _ _).bind fun _ _ => ?_
    split
    · trivial
    · refine (makes_refuseIf _ _).bind fun _ _ => ?_
      split
      · trivial
      · refine (writes_recordMoves (.inr hop) event hid _).bind fun _ _ => ?_
        refine makes_call ⟨hop, hid, rfl⟩ fun _ _ => ?_
        exact (writes_of_maintenance (maintenance_refresh bot event)).bind fun _ _ => trivial

theorem writes_promoteReserveParticipant (hop : command.operation = .promoteReserveParticipant)
    (event : Event) (hid : event.eventId = command.eventId) :
    makes legal (command.MayCall legal) (fun _ => True)
      (promoteReserveParticipant bot command event) := by
  unfold promoteReserveParticipant
  split
  · trivial
  · refine makes_call trivial fun rows _ => ?_
    split
    · trivial
    · split
      · trivial
      · dsimp only
        generalize (if event.registrationQuestion.isSome then _ else _ : List Registration) = queue
        split
        · exact (writes_of_maintenance (maintenance_refresh bot event)).bind fun _ _ => trivial
        · exact writes_promoteReserve bot hop event hid queue _ _

theorem writes_recordPromotions {event : Event} (hfrees : command.Frees event.eventId)
    (registration : Option Registration) :
    makes legal (command.MayCall legal) (fun _ => True)
      (recordPromotions event command registration) := by
  refine Makes.bind (Q := fun _ => True) ?_ fun active _ => (makes_value _).bind fun queue _ => ?_
  · split
    · exact makes_call trivial fun _ _ => trivial
    · trivial
  · refine Makes.bind (Q := fun _ => True) ?_ fun _ _ => ?_
    · unfold recordReservePromotion
      split
      · trivial
      · exact makes_call ⟨hfrees, rfl⟩ fun _ _ => makes_any (makes_value _)
    · unfold recordConfirmedLinkPromotion
      split
      · trivial
      · exact makes_call ⟨hfrees, rfl⟩ fun _ _ => makes_any (makes_value _)

theorem writes_updateProfile (hop : command.operation = .updateProfile) (event : Event)
    (hid : event.eventId = command.eventId) {key : ParticipantKey}
    (hkey : command.participantKey = some key) :
    makes legal (command.MayCall legal) (fun _ => True) (updateProfile bot command event key) := by
  refine (makes_refuseIf _ _).bind fun _ _ => makes_call trivial fun user _ => ?_
  split
  · refine makes_call trivial fun registration _ => makes_call trivial fun leaders _ => ?_
    split
    · split
      · trivial
      · exact (writes_of_maintenance (maintenance_refreshPassTable bot _ _)).bind fun _ _ => trivial
    · refine makes_call ⟨⟨hop, hid, rfl⟩, hkey⟩ fun _ _ => ?_
      refine (writes_of_maintenance (maintenance_refreshWithRows bot event)).bind fun _ _ => ?_
      exact (writes_of_maintenance (maintenance_refreshPassTable bot _ _)).bind fun _ _ => trivial
  · trivial

theorem writes_enlist (hop : command.operation = .enlist) {event : Event}
    (hid : event.eventId = command.eventId) (hstored : legal.stored event) {key : ParticipantKey}
    (hkey : command.participantKey = some key) (payload : EnlistPayload) :
    makes legal (command.MayCall legal) (fun _ => True) (enlist bot command event key payload) := by
  refine (makes_refuseIf _ _).bind fun _ _ => makes_call trivial fun now _ => ?_
  refine (makes_refuseIf _ _).bind fun _ _ => ?_
  refine (writes_of_reads (reads_actorRegistrations bot event command)).bind fun actor _ => ?_
  refine (makes_refuseIf _ _).bind fun _ _ => ?_
  refine Makes.bind (Q := fun _ => event.Accepts (if event.registrationQuestion.isSome then
    payload.answerId else none)) ?_ fun _ haccepts => makes_call trivial fun user _ => ?_
  · cases hquestion : event.registrationQuestion with
    | some question =>
      refine Makes.mono (makes_refuseIf _ _) (fun _ _ h => h) (fun _ h => h) fun _ h => ?_
      simpa [Event.Accepts, hquestion, Option.isSome_iff_ne_none] using h
    | none =>
      refine Makes.mono (makes_refuseIf _ _) (fun _ _ h => h) (fun _ h => h) fun _ h => ?_
      simp [Event.Accepts, hquestion]
  · split
    · trivial
    · refine makes_call ⟨⟨⟨hop, hid, rfl⟩, hkey⟩, event, hstored, rfl, haccepts⟩ fun _ _ => ?_
      refine (writes_of_maintenance (maintenance_refreshWithRows bot event)).bind fun _ _ => ?_
      refine (writes_of_maintenance (maintenance_refreshPassTable bot _ _)).bind fun _ _ => ?_
      refine (makes_found _).bind fun index _ => ?_
      refine Makes.bind (Q := fun _ => True) ?_ fun sameDay _ => ?_
      · split
        · split
          · trivial
          · exact writes_of_maintenance (maintenance_playerRegistrationsOnDate bot _ _ _ _ _)
        · trivial
      · refine (writes_of_reads (reads_eventMasterRecords bot _)).bind fun masters _ => ?_
        exact (makes_value _).bind fun _ _ => trivial

theorem writes_confirm (hop : command.operation = .confirm) (event : Event)
    (hid : event.eventId = command.eventId) (actor : Actor) (payload : CharacterWishPayload) :
    makes legal (command.MayCall legal) (fun _ => True)
      (confirm bot command event actor payload) := by
  refine (makes_refuseIf _ _).bind fun _ _ => ?_
  refine (writes_of_maintenance (maintenance_confirmReplacement bot command event payload _ _)).bind
    fun replacement hreplacement => ?_
  have hother : replacement.map (fun r => r.event.eventId) ≠ some event.eventId := by
    intro h
    obtain ⟨r, hr, hsame⟩ := Option.map_eq_some_iff.mp h
    exact (hreplacement r hr).2 hsame
  refine Makes.bind (Q := fun _ => True) ?_ fun _ _ => ?_
  · split
    · trivial
    · exact writes_recordPromotions (.inr hop) _
  · refine Makes.bind (Q := fun _ => True) ?_ fun _ _ => ?_
    · unfold writeConfirmation
      dsimp only
      split
      · exact makes_call ⟨⟨hop, hid, rfl⟩, hother⟩ fun _ _ => (makes_value _).bind fun _ _ => trivial
      · exact makes_call ⟨⟨hop, hid, rfl⟩, hother⟩ fun _ _ => (makes_value _).bind fun _ _ => trivial
    · refine (writes_of_maintenance (maintenance_refreshReplaced bot _)).bind fun _ _ => ?_
      refine (writes_of_maintenance (maintenance_refreshWithRows bot event)).bind fun _ _ => ?_
      refine (writes_of_maintenance (maintenance_refreshPassTable bot _ _)).bind fun _ _ => ?_
      exact (writes_of_reads (reads_eventMasterRecords bot _)).bind fun _ _ => trivial

theorem writes_updateCharacterWish (hop : command.operation = .updateCharacterWish) (event : Event)
    (hid : event.eventId = command.eventId) (actor : Actor) (payload : CharacterWishPayload) :
    makes legal (command.MayCall legal) (fun _ => True)
      (updateCharacterWish bot command event actor payload) := by
  refine (makes_refuseIf _ _).bind fun _ _ => (makes_refuseIf _ _).bind fun _ _ => ?_
  refine Makes.bind (Q := fun _ => True) ?_ fun _ _ => ?_
  · split
    · exact makes_call ⟨hop, hid, rfl⟩ fun _ _ => trivial
    · exact makes_call ⟨hop, hid, rfl⟩ fun _ _ => (makes_value _).bind fun _ _ => trivial
  · exact (writes_of_maintenance (maintenance_refresh bot event)).bind fun _ _ => trivial

theorem writes_updateCoPlayerWish (hop : command.operation = .updateCoPlayerWish) (event : Event)
    (hid : event.eventId = command.eventId) (actor : Actor) (wishPlay : String) :
    makes legal (command.MayCall legal) (fun _ => True)
      (updateCoPlayerWish bot command event actor wishPlay) := by
  refine (makes_refuseIf _ _).bind fun _ _ => ?_
  refine Makes.bind (Q := fun _ => True) ?_ fun _ _ => ?_
  · split
    · exact makes_call ⟨hop, hid, rfl⟩ fun _ _ => trivial
    · exact makes_call ⟨hop, hid, rfl⟩ fun _ _ => (makes_value _).bind fun _ _ => trivial
  · exact (writes_of_maintenance (maintenance_refresh bot event)).bind fun _ _ => trivial

theorem writes_updateAnswer (hop : command.operation = .updateAnswer) {event : Event}
    (hid : event.eventId = command.eventId) (hstored : legal.stored event) (actor : Actor)
    (answerId : String) :
    makes legal (command.MayCall legal) (fun _ => True)
      (updateAnswer bot command event actor answerId) := by
  unfold updateAnswer
  split
  · trivial
  · next option hoption =>
    refine (makes_refuseIf _ _).bind fun _ _ => (makes_refuseIf _ _).bind fun _ _ => ?_
    split
    · trivial
    · refine (writes_recordPromotions (.inl ⟨hid, by simp [hop]⟩) _).bind fun _ _ => ?_
      obtain ⟨question, hquestion, hfound⟩ := Option.bind_eq_some_iff.mp hoption
      have hid' : some option.optionId = some answerId := by
        simpa using List.find?_some hfound
      have haccepts : event.Accepts (some option.optionId) := by
        rw [Event.Accepts, hquestion, hid']
        exact Option.isSome_iff_exists.mpr ⟨option, hfound⟩
      have hasked : event.registrationQuestion.isSome := by rw [hquestion]; rfl
      refine makes_call ⟨⟨hop, hid, rfl⟩, event, hstored, rfl, hasked, haccepts⟩ fun _ _ => ?_
      refine (writes_of_maintenance (maintenance_refreshWithRows bot event)).bind fun _ _ => ?_
      exact (makes_found _).bind fun _ _ => (makes_found _).bind fun _ _ => trivial

theorem writes_cancel (hop : command.operation = .cancel) (event : Event)
    (hid : event.eventId = command.eventId) (actor : Actor) :
    makes legal (command.MayCall legal) (fun _ => True) (cancel bot command event actor) := by
  refine (makes_whenever (makes_call ⟨by simp [hop], hid, rfl⟩ fun _ _ =>
    makes_any (makes_value _))).bind fun _ _ => ?_
  refine (writes_recordPromotions (.inl ⟨hid, by simp [hop]⟩) _).bind fun _ _ => ?_
  refine Makes.bind (Q := fun _ => True) ?_ fun _ _ => ?_
  · split
    · exact makes_call ⟨hop, hid, rfl⟩ fun _ _ => trivial
    · exact makes_call ⟨hop, hid, rfl⟩ fun _ _ => (makes_value _).bind fun _ _ => trivial
  · refine (writes_of_maintenance (maintenance_refreshWithRows bot event)).bind fun _ _ => ?_
    exact (writes_of_maintenance (maintenance_refreshPassTable bot _ _)).bind fun _ _ => trivial

theorem writes_removeParticipant (hop : command.operation = .removeParticipant) (event : Event)
    (hid : event.eventId = command.eventId) {key : ParticipantKey}
    (hkey : command.participantKey = some key) :
    makes legal (command.MayCall legal) (fun _ => True)
      (removeParticipant bot command event key) := by
  refine makes_call trivial fun registration _ => (makes_refuseIf _ _).bind fun _ _ => ?_
  refine (makes_whenever (makes_call ⟨by simp [hop], hid, rfl⟩ fun _ _ =>
    makes_any (makes_value _))).bind fun _ _ => ?_
  refine (writes_recordPromotions (.inl ⟨hid, by simp [hop]⟩) _).bind fun _ _ => ?_
  refine (makes_whenever (p := do let _ ← registrations (.remove event.eventId key)) ?_).bind
    fun _ _ => ?_
  · exact makes_call ⟨hop, hid, hkey⟩ fun _ _ => trivial
  refine (writes_of_maintenance (maintenance_refreshWithRows bot event)).bind fun _ _ => ?_
  exact (writes_of_maintenance (maintenance_refreshPassTable bot _ _)).bind fun _ _ => trivial

/-! ## The dispatch -/

theorem writes_applyToParticipant {event : Event} (hid : event.eventId = command.eventId)
    (hstored : legal.stored event) {key : ParticipantKey} (hkey : command.participantKey = some key) :
    makes legal (command.MayCall legal) (fun _ => True)
      (applyToParticipant bot command event key) := by
  refine (makes_refuseIf _ _).bind fun _ _ => ?_
  refine (writes_of_reads (reads_actorRegistrations bot event command)).bind fun actor _ => ?_
  dsimp only
  split
  · next hop => exact writes_removeParticipant bot hop event hid hkey
  · refine (makes_refuseIf _ _).bind fun _ _ => ?_
    split
    · trivial
    · unfold applyToActor
      split
      · next hop _ => exact writes_confirm bot hop event hid _ _
      · next hop _ => exact writes_updateCharacterWish bot hop event hid _ _
      · next hop _ => exact writes_updateAnswer bot hop hid hstored _ _
      · next hop _ => exact writes_updateCoPlayerWish bot hop event hid _ _
      · next hop => exact writes_cancel bot hop event hid _
      · trivial

theorem writes_applyToRoster {event : Event} (hid : event.eventId = command.eventId)
    (hstored : legal.stored event) :
    makes legal (command.MayCall legal) (fun _ => True) (applyToRoster bot command event) := by
  refine (writes_of_maintenance (maintenance_ensureMigrated bot hstored)).bind
    fun event' hfollows => ?_
  have hid := hfollows.id.trans hid
  have hstored := hfollows.stored hstored
  split
  · next hop => exact writes_removeWaitingParticipants bot hop event' hid
  · next hop => exact writes_promoteReserveParticipant bot hop event' hid
  · trivial
  · next hop hkey => exact writes_updateProfile bot hop event' hid hkey
  · next hop hkey _ => exact writes_enlist bot hop hid hstored hkey _
  · next hkey _ _ _ _ => exact writes_applyToParticipant bot hid hstored hkey

theorem writes_applyToActive {event : Event} (hid : event.eventId = command.eventId)
    (hstored : legal.stored event) :
    makes legal (command.MayCall legal) (fun _ => True) (applyToActive bot command event) := by
  refine (makes_whenever (writes_of_reads (reads_requireEventLeader command))).bind fun _ _ => ?_
  split
  · next hop _ => exact makes_call ⟨hop, hid⟩ fun _ _ => trivial
  · exact (makes_refuseIf _ _).bind fun _ _ => (makes_refuseIf _ _).bind fun _ _ => trivial
  · next hop _ => exact makes_call ⟨⟨hop, hid⟩, rfl⟩ fun _ _ => trivial
  · trivial
  · next hop _ => exact writes_updateEventDetails bot hop event hid _
  · next hop _ => exact writes_updateQuestion bot hop hid hstored _
  · next hop _ => exact writes_updatePlayerAmount bot hop hid hstored _
  · next hop => exact makes_call (.inl ⟨hop, hid⟩) fun _ _ => trivial
  · next hop => exact makes_call (.inr ⟨hop, hid⟩) fun _ _ => trivial
  · next hop => exact writes_archiveEvent bot hop event hid
  · exact writes_applyToRoster bot hid hstored

/-- The mutation of a command makes no write but its own. -/
theorem writes_apply : makes legal (command.MayCall legal) (fun _ => True) (apply bot command) := by
  refine makes_call trivial fun answer hanswer => ?_
  cases answer with
  | none =>
    dsimp only
    split <;> trivial
  | some event =>
    obtain ⟨hid, hstored⟩ := hanswer event rfl
    dsimp only
    unfold applyToEvent
    split
    · next hop _ => exact writes_scheduledOpenConfirmation bot hop event hid _
    · next hop => exact writes_unarchiveEvent bot hop event hid
    · next hop => exact writes_deleteEvent hop event hid
    · split
      · exact writes_of_maintenance (maintenance_applyToArchived bot event)
      · exact writes_applyToActive bot hid hstored

end LarpBot
