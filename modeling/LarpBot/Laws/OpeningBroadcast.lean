import LarpBot.Laws.Runs
import LarpBot.Laws.StatisticsFailures

/-!
# The broadcast of an opened confirmation

`OPEN_CONFIRMATION` and its scheduled twin write the status of the event and then tell every waiting player.
The decision to tell them is the status change itself, so it is made in one attempt only: the one that finds
the event in another status. If that attempt is given up behind its write, whatever stops it, the next one
finds the event open and the message is deleted with the players untold. Where no attempt is given up there,
every recipient has been told when the message is deleted (`opening_told`).
-/

namespace LarpBot

open Atomic Act

section Opening

variable (bot : Deployment) (command : OrderedRegistrationCommand)

/-- The two operations that open the confirmation of an event. -/
def Operation.OpensConfirmation (operation : Operation) : Prop :=
  operation = .openConfirmation ∨ operation = .scheduledOpenConfirmation

/-- The event of the command is stored with its confirmation open. -/
def IsOpen (w : World) : Prop :=
  (w.events.get command.eventId).map Event.status = some .confirmationOpen

/-- The recipients that the broadcast selects: the users behind the waiting rows of the event. -/
def openingRecipients (w : World) : List BotIdentity :=
  match w.events.get command.eventId with
  | none => []
  | some event => (usersWithKeys bot event.eventId
      (recipientKeys event [.waiting] false (w.registrations.listForEvent event.eventId))
      w.users.listAll).map User.identity

/-- The messenger accepted the broadcast of the command for a recipient, or refused the recipient for good. -/
def Told (w : World) (identity : BotIdentity) : Prop :=
  ∃ d ∈ w.sent, (⟨d.platform, d.userId⟩ : BotIdentity) = identity ∧
    d.requestId = broadcastRequest command.operationId identity ∧ d.outcome ≠ .failed

def AllTold (w : World) : Prop :=
  ∀ identity ∈ openingRecipients bot command w, Told command w identity

/-- The marker of the broadcast stands for a recipient who was told. -/
def MarkedTold (w : World) : Prop :=
  ∀ user ∈ w.users.rows,
    user.base.lastDeliveryOperationId = some (broadcastRequest command.operationId user.identity) →
    Told command w user.identity

/-- A call of the command has opened the event. -/
def IsOpening : Record ports Reply OrderedRegistrationCommand World → Prop
  | .called job _ before _ after => job = command ∧ ¬ IsOpen command before ∧ IsOpen command after
  | .finished _ _ => False

def HasOpened (history : List (Record ports Reply OrderedRegistrationCommand World)) : Prop :=
  ∃ record ∈ history, IsOpening command record

/-- What every call of the command keeps. -/
structure Onward (w w' : World) : Prop extends Keeps w w' where
  isOpen : IsOpen command w → IsOpen command w'
  deadline : w.events.Has command.eventId (·.confirmationDeadline.isSome) →
    w'.events.Has command.eventId (·.confirmationDeadline.isSome)
  told : ∀ identity, Told command w identity → Told command w' identity
  marked : MarkedTold command w → MarkedTold command w'

/-- What the rest of the bot leaves alone around an opening: it neither opens nor closes the event, nor
takes its deadline or public table, adds nobody to the recipients, and sets no marker of the broadcast. -/
structure Uninvolved (w w' : World) : Prop extends Onward command w w' where
  closed : IsOpen command w' → IsOpen command w
  recipients : ∀ identity ∈ openingRecipients bot command w', identity ∈ openingRecipients bot command w

/-- An attempt at the command is under way, or one has opened the event. -/
def Engaged (s : Plant) : Prop :=
  HasOpened command s.history ∨ ∃ p, s.Working command.queueGroupId command p

/-- The world may become this one by no doing of the command. -/
def SparesOpening (s : Plant) (w : World) : Prop :=
  (MarkedTold command s.world → MarkedTold command w) ∧
    (Engaged command s → Uninvolved bot command s.world w)

/-- The steps of a run in which no attempt is given up between the opening and the last message. -/
def SeesThrough (s : Plant) : Move → Prop
  | .outside world => SparesOpening bot command s world
  | .call lane input => ∀ job c, s.Calls lane job c → job ≠ command →
      SparesOpening bot command s (c.perform input s.world).2
  | .abandon lane => ∀ p, s.Working lane command p → HasOpened command s.history →
      AllTold bot command s.world
  | _ => True

end Opening

variable {bot : Deployment} {otherServices : OtherServices} {command : OrderedRegistrationCommand}
  {w w' w'' : World} {α β : Type}

/-! ## What is kept -/

theorem isOpen_iff : IsOpen command w ↔
    ∃ event, w.events.get command.eventId = some event ∧ event.status = .confirmationOpen :=
  Option.map_eq_some_iff

namespace Onward

theorem refl (w : World) : Onward command w w :=
  { Keeps.refl w with
    isOpen := fun h => h
    deadline := fun h => h
    told := fun _ h => h
    marked := fun h => h }

theorem trans (h : Onward command w w') (h' : Onward command w' w'') : Onward command w w'' :=
  { h.toKeeps.trans h'.toKeeps with
    isOpen := fun hw => h'.isOpen (h.isOpen hw)
    deadline := fun hw => h'.deadline (h.deadline hw)
    told := fun identity hw => h'.told identity (h.told identity hw)
    marked := fun hw => h'.marked (h.marked hw) }

end Onward

namespace Uninvolved

theorem refl (w : World) : Uninvolved bot command w w :=
  { Onward.refl w with
    closed := fun h => h
    recipients := fun _ h => h }

theorem trans (h : Uninvolved bot command w w') (h' : Uninvolved bot command w' w'') :
    Uninvolved bot command w w'' :=
  { h.toOnward.trans h'.toOnward with
    closed := fun hw => h.closed (h'.closed hw)
    recipients := fun identity hw => h.recipients identity (h'.recipients identity hw) }

theorem allTold (h : Uninvolved bot command w w') (hw : AllTold bot command w) : AllTold bot command w' :=
  fun identity hmem => h.told identity (hw identity (h.recipients identity hmem))

end Uninvolved

theorem recipientKeys_waiting (event : Event) (rows : List Registration) :
    recipientKeys event [.waiting] false rows =
      (rows.filter fun row => row.attendanceStatus = .waiting).map Registration.participantKey := by
  simp [recipientKeys]

/-- Who is a recipient is a matter of the identities, the rows and the event's being stored. -/
theorem mem_openingRecipients {identity : BotIdentity} : identity ∈ openingRecipients bot command w ↔
    (w.events.get command.eventId).isSome ∧ identity ∈ w.users.rows.map User.identity ∧
      bot.keyOf identity command.eventId ∈ ((w.registrations.listForEvent command.eventId).filter fun row =>
        row.attendanceStatus = .waiting).map Registration.participantKey := by
  unfold openingRecipients
  cases hevent : w.events.get command.eventId with
  | none => simp
  | some event =>
    dsimp only
    rw [Events.eventId_of_get hevent, recipientKeys_waiting, usersWithKeys, Users.listAll]
    constructor
    · intro hmem
      obtain ⟨user, huser, rfl⟩ := List.mem_map.mp hmem
      obtain ⟨hstored, hkey⟩ := List.mem_filter.mp huser
      exact ⟨rfl, List.mem_map_of_mem hstored, of_decide_eq_true hkey⟩
    · rintro ⟨-, hmem, hkey⟩
      obtain ⟨user, huser, rfl⟩ := List.mem_map.mp hmem
      exact List.mem_map_of_mem (List.mem_filter.mpr ⟨huser, decide_eq_true hkey⟩)

/-! ## One call -/

/-- The rewriting of an event that opens it or leaves it open. -/
theorem onward_rewrites {events : Events} {f : Event → Event} {leaders : Leaders}
    (h : Events.Rewrites f w.events events) (hopen : ∀ e, (f e).status = .confirmationOpen)
    (hdeadline : ∀ e, e.confirmationDeadline.isSome → (f e).confirmationDeadline.isSome)
    (htable : ∀ e, e.publicTableResourcePath.isSome → (f e).publicTableResourcePath.isSome) :
    Onward command w { w with events := events, leaders := leaders } :=
  { Keeps.of_rewrites h htable with
    isOpen := fun hw => by
      obtain ⟨event, hevent, hstatus⟩ := isOpen_iff.mp hw
      obtain ⟨event', hevent', hstatus'⟩ := h.has (p := fun e => e.status = .confirmationOpen)
        (fun e _ => decide_eq_true (hopen e)) ⟨event, hevent, decide_eq_true hstatus⟩
      exact isOpen_iff.mpr ⟨event', hevent', of_decide_eq_true hstatus'⟩
    deadline := h.has hdeadline
    told := fun _ h => h
    marked := fun h => h }

theorem uninvolved_rewrites {events : Events} {leaders : Leaders} (hw : IsOpen command w)
    (h : Onward command w { w with events := events, leaders := leaders }) :
    Uninvolved bot command w { w with events := events, leaders := leaders } :=
  { h with
    closed := fun _ => hw
    recipients := fun identity hmem => by
      obtain ⟨event, hevent, -⟩ := isOpen_iff.mp hw
      obtain ⟨-, hrecipient⟩ := mem_openingRecipients.mp hmem
      exact mem_openingRecipients.mpr ⟨hevent ▸ rfl, hrecipient⟩ }

theorem Told.append {identity : BotIdentity} (h : Told command w identity) (d : Delivery) :
    Told command { w with sent := w.sent ++ [d] } identity := by
  obtain ⟨d', hd', hrest⟩ := h
  exact ⟨d', List.mem_append_left _ hd', hrest⟩

theorem uninvolved_send (d : Delivery) : Uninvolved bot command w { w with sent := w.sent ++ [d] } :=
  { Uninvolved.refl w with
    told := fun _ h => h.append d
    marked := fun h user huser hmarker => (h user huser hmarker).append d }

/-- A delivery claim changes one profile, and there the marker only. -/
theorem Users.mem_claimDelivery {users : Users} {platform : Platform} {userId : Nat} {operationId : OperationId}
    {buttons : List Button} {user' : User}
    (h : user' ∈ (users.claimDelivery platform userId operationId buttons).2.rows) :
    user' ∈ users.rows ∨
      user'.identity = ⟨platform, userId⟩ ∧ user'.base.lastDeliveryOperationId = some operationId := by
  unfold Users.claimDelivery at h
  split at h
  · exact .inl h
  · split at h
    · exact .inl h
    · rw [Table.rows_modify] at h
      obtain ⟨user, hmem, rfl⟩ := List.mem_map.mp h
      split
      · next hkey =>
        refine .inr ⟨?_, by simp⟩
        rw [User.identity_mapBase]
        exact hkey
      · exact .inl hmem

theorem Users.identities_claimDelivery (users : Users) (platform : Platform) (userId : Nat)
    (operationId : OperationId) (buttons : List Button) :
    (users.claimDelivery platform userId operationId buttons).2.rows.map User.identity =
      users.rows.map User.identity := by
  unfold Users.claimDelivery
  split
  · rfl
  · split
    · rfl
    · exact Table.map_rows_modify _ _ _ (fun user => User.identity_mapBase _ user) fun user =>
        User.identity_mapBase _ user

/-- A marker is set for somebody who was told, or it is not the broadcast's. -/
theorem uninvolved_claim {platform : Platform} {userId : Nat} {requestId : OperationId} {buttons : List Button}
    (h : requestId = broadcastRequest command.operationId ⟨platform, userId⟩ →
      Told command w ⟨platform, userId⟩) :
    Uninvolved bot command w
      { w with users := (w.users.claimDelivery platform userId requestId buttons).2 } :=
  { Onward.refl w with
    closed := fun h => h
    marked := fun hmarked user' huser' hmarker => by
      rcases Users.mem_claimDelivery huser' with huser | ⟨hidentity, hclaimed⟩
      · exact hmarked user' huser hmarker
      · rw [hclaimed, hidentity] at hmarker
        rw [hidentity]
        exact h (Option.some.inj hmarker)
    recipients := fun identity hmem => by
      obtain ⟨hstored, huser, hkey⟩ := mem_openingRecipients.mp hmem
      rw [Users.identities_claimDelivery] at huser
      exact mem_openingRecipients.mpr ⟨hstored, huser, hkey⟩ }

/-- A broadcast's request is longer than the operation id that the reply is sent under. -/
theorem operationId_ne_broadcastRequest (identity : BotIdentity) :
    command.operationId ≠ broadcastRequest command.operationId identity := by
  intro h
  have hlength := congrArg String.length h
  simp only [broadcastRequest, toString, String.length_append] at hlength
  have : 0 < ":".length := by decide
  omega

theorem onward_maintains (h : Maintains w w') : Onward command w w' :=
  { Keeps.of_maintains h with
    isOpen := fun hw => by
      obtain ⟨event, hevent, hstatus⟩ := isOpen_iff.mp hw
      obtain ⟨event', hevent', hcore⟩ := h.get hevent
      exact isOpen_iff.mpr ⟨event', hevent', (Event.eq_of_core Event.status (fun _ => rfl) hcore).trans hstatus⟩
    deadline := by
      rintro ⟨event, hevent, hdeadline⟩
      obtain ⟨event', hevent', hcore⟩ := h.get hevent
      have hsame := Event.eq_of_core Event.confirmationDeadline (fun _ => rfl) hcore
      exact ⟨event', hevent', (congrArg Option.isSome hsame).trans hdeadline⟩
    told := fun identity hw => by rwa [Told, h.sent]
    marked := fun hw user huser hmarker => by
      rw [h.users] at huser
      have htold := hw user huser hmarker
      rwa [Told, h.sent] }

/-! ## Programs among the others -/

/-- What a part of the command does, whatever the integrations answer, while the rest of the bot leaves the
opening alone. -/
abbrev steady (bot : Deployment) (command : OrderedRegistrationCommand) (Q : α → World → Prop)
    (X : Failure → World → Prop) (p : Act α) (w : World) : Prop :=
  wp storage ⟨Uninvolved bot command, fun _ => True⟩ (fun _ => Onward command) Q X p w

section Rules

variable {Q : α → World → Prop} {R : β → World → Prop} {X Y : Failure → World → Prop}

theorem steady_mono {R : α → World → Prop} {p : Act α} (hp : steady bot command R Y p w)
    (hQ : ∀ a w, R a w → Q a w) (hX : ∀ e w, Y e w → X e w) : steady bot command Q X p w :=
  wp_mono hp hQ hX

theorem steady_seq {p : Act β} {f : β → Act α} (hp : steady bot command R X p w)
    (hf : ∀ b w, R b w → steady bot command Q X (f b) w) : steady bot command Q X (p >>= f) w :=
  wp_bind.mpr (wp_mono hp hf fun _ _ h => h)

theorem steady_call {c : Call} {f : c.Ans → Act α}
    (h : ∀ w', Uninvolved bot command w w' → ∀ i, Onward command w' (c.perform i w').2 ∧
      steady bot command Q X (f (c.perform i w').1) (c.perform i w').2) :
    steady bot command Q X (one c >>= f) w :=
  fun w' hw' i _ => h w' hw' i

/-- A domain error of the first part goes to its handler. -/
theorem steady_onDomainError {p : Act α} {handler : DomainError → Act α} (hp : steady bot command Q Y p w)
    (hfault : ∀ fault w, Y (.fault fault) w → X (.fault fault) w)
    (hdomain : ∀ error w, Y (.domain error) w → steady bot command Q X (handler error) w) :
    steady bot command Q X (onDomainError p handler) w := by
  refine wp_catching.mpr (wp_mono hp (fun _ _ h => h) fun e w he => ?_)
  cases e with
  | domain error => exact hdomain error w he
  | fault fault => exact hfault fault w he

/-- Reads leave everything as the others do. -/
theorem steady_reads {p : Act α} {P : α → Prop} (hp : makes anyWorkbook Call.IsRead P p) :
    steady bot command (fun _ w' => Uninvolved bot command w w') (fun _ w' => Uninvolved bot command w w')
      p w := by
  have hread (c : Call) (i : Input) (w : World) (hc : c.IsRead) : Uninvolved bot command w (storage c i w).2 := by
    rw [show (storage c i w).2 = w from perform_read hc i w]
    exact Uninvolved.refl w
  have hkeeps := wp_keeps_of_makes (h := storage) (E := ⟨Uninvolved bot command, fun _ => True⟩) (w := w)
    Uninvolved.refl (fun _ _ _ => Uninvolved.trans) (fun _ _ h => h) hp
    (fun _ i _ _ => plausible_perform (respects_anyWorkbook i) fun _ _ => trivial)
    fun c i w hc _ => hread c i w hc
  have hcalls := wp_of_makes (h := storage) (E := ⟨Uninvolved bot command, fun _ => True⟩) (w := w)
    (G := fun _ => Onward command) hp
    (fun _ i _ _ => plausible_perform (respects_anyWorkbook i) fun _ _ => trivial)
    fun c i w hc _ => (hread c i w hc).toOnward
  exact wp_weaken (wp_mono (wp_and hkeeps hcalls) (fun _ _ h => h.1.1) fun _ _ h => h.1) (fun _ _ h => h)
    (fun _ h => h) fun _ _ _ h => h.2

end Rules

/-! ## The write -/

/-- What the write of an opening attempt leaves for the fan-out. -/
structure Opened (command : OrderedRegistrationCommand) (w w' : World) : Prop where
  deadline : w'.events.Has command.eventId (·.confirmationDeadline.isSome)
  marked : MarkedTold command w → MarkedTold command w'

/-- What the result of the mutation says. -/
def Written (bot : Deployment) (command : OrderedRegistrationCommand) (w : World) (result : MutationResult)
    (w' : World) : Prop :=
  if result.notificationsEnabled then Opened command w w' else Uninvolved bot command w w'

theorem steady_openConfirmation {w₁ : World} {event : Event} {deadline : Time}
    (h₁ : Uninvolved bot command w w₁) (hclosed : event.status = .confirmationOpen ↔ IsOpen command w₁)
    (hevent : (w₁.events.get command.eventId).isSome) (hid : event.eventId = command.eventId) :
    steady bot command (Written bot command w) (fun _ _ => False) (openConfirmation event deadline) w₁ := by
  refine steady_call fun w₂ h₂ i => ?_
  obtain ⟨stored, hstored⟩ := Option.isSome_iff_exists.mp (h₂.stored _ hevent)
  have honward : Onward command w₂ (Call.perform (.events (.openConfirmation event.eventId deadline)) i w₂).2 :=
    onward_rewrites Events.rewrites_always (fun _ => rfl) (fun _ _ => rfl) fun _ h => h
  have hget : (w₂.events.openConfirmation (i .now) event.eventId deadline).2.get command.eventId =
      some { stored with
        status := .confirmationOpen, confirmationOpenAt := none
        confirmationDeadline := some deadline, updatedAt := i .now } := by
    rw [Events.openConfirmation, hid, Events.always_of_get hstored, Events.get_modify hstored]
  refine ⟨honward, ?_⟩
  have hsince := h₁.trans h₂
  show Written bot command w ⟨_, decide (event.status ≠ .confirmationOpen), none, none⟩ _
  unfold Written
  split
  · exact ⟨⟨_, hget, rfl⟩, fun h => honward.marked (hsince.marked h)⟩
  · next hsame =>
    have hstays : IsOpen command w₂ := by
      refine h₂.isOpen (hclosed.mp ?_)
      by_contra hne
      exact hsame (decide_eq_true hne)
    exact hsince.trans (uninvolved_rewrites hstays honward)

/-- The timer opens a game that is created and has a deadline, or writes nothing. -/
theorem openScheduledConfirmation_cases (events : Events) (now : Time) (eventId : EventId) (opensAt deadline : Time) :
    ((events.openScheduledConfirmation now eventId opensAt deadline).1 = false ∧
      (events.openScheduledConfirmation now eventId opensAt deadline).2 = events) ∨
    ((events.openScheduledConfirmation now eventId opensAt deadline).1 = true ∧
      ∃ opened, (events.openScheduledConfirmation now eventId opensAt deadline).2.get eventId = some opened ∧
        opened.confirmationDeadline.isSome) := by
  unfold Events.openScheduledConfirmation
  cases hstored : events.get eventId with
  | none =>
    rw [Events.when, hstored]
    exact .inl ⟨rfl, rfl⟩
  | some stored =>
    by_cases hpasses : (stored.archivedAt.isNone && stored.status = .created &&
        stored.confirmationOpenAt = some opensAt && stored.confirmationDeadline = some deadline) = true
    · rw [Events.when_of_get hstored hpasses, Events.get_modify hstored]
      simp only [Bool.and_eq_true, decide_eq_true_eq] at hpasses
      exact .inr ⟨rfl, _, rfl, hpasses.2 ▸ rfl⟩
    · rw [Events.when, hstored]
      dsimp only
      rw [if_neg hpasses]
      exact .inl ⟨rfl, rfl⟩

theorem steady_scheduledOpenConfirmation {w₁ : World} {event : Event} {deadline : Time}
    (h₁ : Uninvolved bot command w w₁) (hid : event.eventId = command.eventId) :
    steady bot command (Written bot command w) (fun _ w' => Uninvolved bot command w w')
      (scheduledOpenConfirmation bot command event deadline) w₁ := by
  unfold scheduledOpenConfirmation
  split
  · exact h₁
  · split
    · next opensAt _ =>
      split
      · exact h₁
      · dsimp only
        split
        · exact h₁
        · refine steady_call fun w₂ h₂ i => ?_
          have hsince := h₁.trans h₂
          have honward : Onward command w₂
              (Call.perform (.events (.openScheduledConfirmation event.eventId opensAt deadline)) i w₂).2 :=
            onward_rewrites Events.rewrites_when (fun _ => rfl) (fun _ h => h) fun _ h => h
          refine ⟨honward, ?_⟩
          rcases openScheduledConfirmation_cases w₂.events (i .now) event.eventId opensAt deadline with
            ⟨hrefused, hsame⟩ | ⟨hwritten, opened, hget, hdeadline⟩
          · have hkept : (Call.perform (.events
                (.openScheduledConfirmation event.eventId opensAt deadline)) i w₂) = (false, w₂) := by
              refine Prod.ext hrefused ?_
              show { w₂ with events := (w₂.events.openScheduledConfirmation ..).2 } = w₂
              rw [hsame]
            rw [hkept]
            exact hsince
          · rw [show (Call.perform (.events
              (.openScheduledConfirmation event.eventId opensAt deadline)) i w₂).1 = true from hwritten]
            exact ⟨hid ▸ ⟨opened, hget, hdeadline⟩, fun h => honward.marked (hsince.marked h)⟩
    · exact h₁

theorem confirmationDeadline_of_opens (hop : command.operation.OpensConfirmation) :
    ∃ deadline, command.payload = .confirmationDeadline deadline := by
  have hfits := command.payload_fits
  rcases hop with hop | hop <;> rw [hop] at hfits <;>
    cases hpayload : command.payload <;> simp_all [payloadFits]

/-- The mutation of an opening command opens the event, and says so, or leaves the opening alone. -/
theorem steady_apply (hop : command.operation.OpensConfirmation) :
    steady bot command (Written bot command w) (fun _ w' => Uninvolved bot command w w') (apply bot command) w := by
  obtain ⟨deadline, hpayload⟩ := confirmationDeadline_of_opens hop
  refine steady_call fun w₁ h₁ i => ⟨Onward.refl w₁, ?_⟩
  rw [show Call.perform (.events (.get command.eventId)) i w₁ = (w₁.events.get command.eventId, w₁) from rfl]
  dsimp only
  cases hevent : w₁.events.get command.eventId with
  | none =>
    have hother : ¬ (command.operation = .archiveEvent || command.operation = .deleteEvent) := by
      rcases hop with hop | hop <;> simp [hop]
    dsimp only
    rw [if_neg hother]
    exact h₁
  | some event =>
    have hid := Events.eventId_of_get hevent
    rcases hop with hop | hop
    · simp only [applyToEvent, applyToArchived, applyToActive, hop, hpayload]
      split
      · exact h₁
      · refine steady_seq (steady_mono (steady_reads (makes_whenever (reads_requireEventLeader command)))
          (fun _ _ h => h) fun _ _ h => h₁.trans h) fun _ w₂ h₂ => ?_
        have hstatus : event.status = .confirmationOpen ↔ IsOpen command w₁ := by
          rw [IsOpen, hevent, Option.map_some, Option.some_inj]
        exact steady_mono (steady_openConfirmation (h₁.trans h₂)
          (hstatus.trans ⟨h₂.isOpen, h₂.closed⟩) (h₂.stored _ (hevent ▸ rfl)) hid) (fun _ _ h => h)
          fun _ _ h => h.elim
    · simp only [applyToEvent, hop, hpayload]
      exact steady_scheduledOpenConfirmation h₁ hid

/-! ## The fan-out -/

theorem broadcastOf_opening (bot : Deployment) (hop : command.operation.OpensConfirmation) {event : Event}
    (hdeadline : event.confirmationDeadline.isSome) :
    ∃ broadcast, broadcastOf bot command event = .done broadcast ∧
      broadcast.attendanceStatuses = [.waiting] ∧ broadcast.mainRosterOnly = false := by
  obtain ⟨deadline, hdeadline⟩ := Option.isSome_iff_exists.mp hdeadline
  rcases hop with hop | hop <;>
    simp only [broadcastOf, hop, hdeadline] <;> exact ⟨_, rfl, rfl, rfl⟩

/-- The migration before the fan-out takes nothing away, and raises no domain error. -/
theorem steady_ensureMigrated {event : Event} (hevent : (w.events.get event.eventId).isSome) :
    steady bot command (fun _ w' => Onward command w w') (fun e _ => ∀ error, e ≠ .domain error)
      (ensureMigrated bot event) w := by
  have hcalls : makes anyWorkbook (Call.IsMaintenance anyWorkbook)
      ((anyWorkbook : Legal).Follows event) (ensureMigrated bot event) :=
    maintenance_ensureMigrated bot trivial
  have hkeeps := wp_keeps_of_makes (h := storage) (E := ⟨Uninvolved bot command, fun _ => True⟩) (w := w)
    Onward.refl (fun _ _ _ => Onward.trans) (fun _ _ h => h.toOnward) hcalls
    (fun _ i _ _ => plausible_perform (respects_anyWorkbook i) fun _ _ => trivial)
    fun _ i w hc _ => onward_maintains (maintains_perform hc i w)
  have honward := wp_of_makes (h := storage) (E := ⟨Uninvolved bot command, fun _ => True⟩) (w := w)
    (G := fun _ => Onward command) hcalls
    (fun _ i _ _ => plausible_perform (respects_anyWorkbook i) fun _ _ => trivial)
    fun _ i w hc _ => onward_maintains (maintains_perform hc i w)
  have hmigration := endures_migration (E := ⟨Uninvolved bot command, fun _ => True⟩) bot
    (fun _ _ h => h.toKeeps) hevent
  exact wp_weaken (wp_mono (wp_and (wp_and hkeeps honward) hmigration) (fun _ _ h => h.1.1.1) fun _ _ h => h.2)
    (fun _ _ h => h) (fun _ h => h) fun _ _ _ h => h.1.2

/-- Everybody who is a recipient is found. -/
theorem steady_recipients {event : Event} (hevent : (w.events.get event.eventId).isSome)
    (hid : event.eventId = command.eventId) (hmarked : MarkedTold command w) :
    steady bot command (fun found w' => Onward command w w' ∧
        (∀ user ∈ found, user.base.lastDeliveryOperationId =
          some (broadcastRequest command.operationId user.identity) → Told command w' user.identity) ∧
        ∀ identity ∈ openingRecipients bot command w', identity ∈ found.map User.identity)
      (fun e _ => ∀ error, e ≠ .domain error) (recipients bot event [.waiting] false) w := by
  refine steady_seq (steady_ensureMigrated hevent) fun _ w₁ h₁ => ?_
  refine steady_call fun w₂ h₂ i => ⟨Onward.refl w₂, ?_⟩
  refine steady_call fun w₃ h₃ i => ⟨Onward.refl w₃, ?_⟩
  have hsince := (h₁.trans h₂.toOnward).trans h₃.toOnward
  refine ⟨hsince, fun user huser hmarker => ?_, fun identity hmem => ?_⟩
  · exact hsince.marked hmarked user (List.mem_filter.mp huser).1 hmarker
  · -- a recipient of now was one when the rows were read
    obtain ⟨-, -, hkey⟩ := mem_openingRecipients.mp (h₃.recipients identity hmem)
    obtain ⟨-, huser, -⟩ := mem_openingRecipients.mp hmem
    obtain ⟨user, hstored, rfl⟩ := List.mem_map.mp huser
    refine List.mem_map_of_mem (List.mem_filter.mpr ⟨hstored, decide_eq_true ?_⟩)
    rw [recipientKeys_waiting, hid]
    exact hkey

theorem told_send {identity : BotIdentity} {text : String} {buttons : List Button} {i : Input}
    (h : (Call.perform (.outside (.send identity.platform identity.platformUserId
      (broadcastRequest command.operationId identity) text buttons)) i w).1 ≠ SendOutcome.failed) :
    Told command (Call.perform (.outside (.send identity.platform identity.platformUserId
      (broadcastRequest command.operationId identity) text buttons)) i w).2 identity :=
  ⟨_, List.mem_append_right _ (List.mem_singleton_self _), rfl, rfl, h⟩

/-- A recipient is told, here or before. -/
theorem steady_notifyOne {broadcast : Broadcast} {user : User}
    (hmarked : user.base.lastDeliveryOperationId = some (broadcastRequest command.operationId user.identity) →
      Told command w user.identity) :
    steady bot command (fun _ w' => Uninvolved bot command w w' ∧ Told command w' user.identity)
      (fun e _ => ∀ error, e ≠ .domain error) (notifyOne command.operationId broadcast user) w := by
  unfold notifyOne
  dsimp only
  split
  · next hmarker => exact ⟨Uninvolved.refl w, hmarked hmarker⟩
  · refine steady_seq (R := fun _ w' => Uninvolved bot command w w' ∧ Told command w' user.identity) ?_
      fun reached w₁ hreached => ?_
    · refine steady_call fun w₁ h₁ i => ?_
      have hsent : Uninvolved bot command w₁ (Call.perform (.outside (.send user.identity.platform
          user.identity.platformUserId (broadcastRequest command.operationId user.identity) broadcast.text
          broadcast.buttons)) i w₁).2 :=
        uninvolved_send _
      refine ⟨hsent.toOnward, ?_⟩
      split
      · next haccepted =>
        exact ⟨h₁.trans hsent, told_send fun h => by rw [haccepted] at h; cases h⟩
      · next hunreachable =>
        exact ⟨h₁.trans hsent, told_send fun h => by rw [hunreachable] at h; cases h⟩
      · exact fun error h => by cases h
    · obtain ⟨h₁, htold⟩ := hreached
      refine steady_seq (R := fun _ w' => Uninvolved bot command w w' ∧ Told command w' user.identity) ?_
        fun _ w₂ h₂ => h₂
      refine steady_call fun w₂ h₂ i => ?_
      have hclaimed : Uninvolved bot command w₂ (Call.perform (.users (.claimDelivery user.identity.platform
          user.identity.platformUserId (broadcastRequest command.operationId user.identity)
          broadcast.buttons)) i w₂).2 :=
        uninvolved_claim fun _ => h₂.told _ htold
      exact ⟨hclaimed.toOnward, (h₁.trans h₂).trans hclaimed, hclaimed.told _ (h₂.told _ htold)⟩

/-- After the fan-out every recipient has been told, and it raises no domain error. -/
theorem steady_notify (hop : command.operation.OpensConfirmation)
    (hdeadline : w.events.Has command.eventId (·.confirmationDeadline.isSome)) (hmarked : MarkedTold command w) :
    steady bot command (fun _ w' => AllTold bot command w') (fun e _ => ∀ error, e ≠ .domain error)
      (notify bot command) w := by
  refine steady_call fun w₁ h₁ i => ⟨Onward.refl w₁, ?_⟩
  obtain ⟨event, hevent, hset⟩ := h₁.deadline hdeadline
  rw [show Call.perform (.events (.get command.eventId)) i w₁ = (w₁.events.get command.eventId, w₁) from rfl]
  dsimp only
  rw [hevent]
  have hid := Events.eventId_of_get hevent
  obtain ⟨broadcast, hbroadcast, hstatuses, hroster⟩ := broadcastOf_opening bot hop hset
  show steady _ _ _ _ (broadcastOf bot command event >>= _) w₁
  rw [hbroadcast]
  show steady _ _ _ _ (recipients bot event broadcast.attendanceStatuses broadcast.mainRosterOnly >>= _) w₁
  rw [hstatuses, hroster]
  have hstored : (w₁.events.get event.eventId).isSome := by
    rw [hid, hevent]
    rfl
  refine steady_seq (steady_recipients hstored hid (h₁.marked hmarked)) fun found w₂ hrecipients => ?_
  obtain ⟨-, hmarkers, hfound⟩ := hrecipients
  refine steady_seq (R := fun _ w' => Uninvolved bot command w₂ w' ∧
    ∀ user ∈ found, Told command w' user.identity) ?_ fun _ w' hfanned => ?_
  · refine wp_traverse_all (P := fun (seen : List User) _ w' => Uninvolved bot command w₂ w' ∧
      ∀ user ∈ seen, Told command w' user.identity) (fun seen _ user hmem w' hseen => ?_)
      ⟨Uninvolved.refl w₂, fun _ h => absurd h List.not_mem_nil⟩
    obtain ⟨hlater, htold⟩ := hseen
    have hone : steady bot command (fun _ w'' => Uninvolved bot command w' w'' ∧ Told command w'' user.identity)
        (fun e _ => ∀ error, e ≠ .domain error) (notifyOne command.operationId broadcast user) w' :=
      steady_notifyOne fun hmarker => hlater.told _ (hmarkers user hmem hmarker)
    refine steady_mono hone (fun _ w'' h => ⟨hlater.trans h.1, fun user' hmem' => ?_⟩) fun _ _ h => h
    rcases List.mem_append.mp hmem' with hseen | hlast
    · exact h.1.told _ (htold user' hseen)
    · rw [List.mem_singleton.mp hlast]
      exact h.2
  · obtain ⟨hlater, htold⟩ := hfanned
    intro identity hmem
    obtain ⟨user, huser, rfl⟩ := List.mem_map.mp (hfound identity (hlater.recipients identity hmem))
    exact htold user huser

/-! ## The attempt -/

theorem steady_deliverOnce (text : String) (buttons : List Button) :
    steady bot command (fun _ w' => Uninvolved bot command w w') (fun _ _ => True)
      (deliverOnce command text buttons) w := by
  unfold deliverOnce
  split
  · exact Uninvolved.refl w
  · refine steady_call fun w₁ h₁ i => ⟨Onward.refl w₁, ?_⟩
    split
    · exact h₁
    · refine steady_seq (R := fun _ w' => Uninvolved bot command w w') ?_ fun reached w₂ h₂ => ?_
      · refine steady_call fun w₂ h₂ i => ?_
        have hsent : Uninvolved bot command w₂ (Call.perform (.outside (.send command.platform
            command.platformUserId command.operationId text buttons)) i w₂).2 :=
          uninvolved_send _
        refine ⟨hsent.toOnward, ?_⟩
        have hsince := (h₁.trans h₂).trans hsent
        split
        · exact hsince
        · exact hsince
        · trivial
      · cases reached with
        | false => exact h₂
        | true =>
          refine steady_seq (R := fun _ w' => Uninvolved bot command w w') ?_ fun _ _ h => h
          refine steady_call fun w₃ h₃ i => ?_
          have hclaimed : Uninvolved bot command w₃ (Call.perform (.users (.claimDelivery command.platform
              command.platformUserId command.operationId buttons)) i w₃).2 :=
            uninvolved_claim fun h => absurd h (operationId_ne_broadcastRequest _)
          exact ⟨hclaimed.toOnward, (h₂.trans h₃).trans hclaimed⟩

theorem Operation.OpensConfirmation.isNotification {operation : Operation} (h : operation.OpensConfirmation) :
    operation.isNotification = true := by
  rcases h with rfl | rfl <;> rfl

theorem steady_mutate (otherServices : OtherServices) (hop : command.operation.OpensConfirmation) :
    steady bot command (Written bot command w) (fun _ w' => Uninvolved bot command w w')
      (mutate bot otherServices command) w := by
  have hmutate : mutate bot otherServices command = apply bot command := by
    rcases hop with hop | hop <;> simp [mutate, hop, Operation.isElsewhere]
  rw [hmutate]
  exact steady_apply hop

theorem steady_announce {result : MutationResult} (hop : command.operation.OpensConfirmation)
    (hdeadline : w.events.Has command.eventId (·.confirmationDeadline.isSome)) (hmarked : MarkedTold command w) :
    steady bot command (fun _ w' => AllTold bot command w') (fun e _ => ∀ error, e ≠ .domain error)
      (announce bot command result) w := by
  unfold announce
  rw [if_pos hop.isNotification]
  exact steady_seq (steady_notify hop hdeadline hmarked) fun _ _ h => h

/-- The mutation and the notices of an attempt leave the opening alone, or everybody is told. -/
theorem steady_respond (otherServices : OtherServices) (hop : command.operation.OpensConfirmation)
    (hmarked : MarkedTold command w) :
    steady bot command (fun _ w' => Uninvolved bot command w w' ∨ AllTold bot command w') (fun _ _ => True)
      (respond bot otherServices command) w := by
  refine steady_seq (R := fun outcome w' => match outcome with
      | .inl result => Written bot command w result w'
      | .inr _ => Uninvolved bot command w w') ?_ fun outcome w₁ h₁ => ?_
  · refine steady_onDomainError (Y := fun _ w' => Uninvolved bot command w w') ?_ (fun _ _ _ => trivial)
      fun _ _ h => h
    exact steady_seq (steady_mutate otherServices hop) fun _ _ h => h
  · cases outcome with
    | inr error => exact .inl h₁
    | inl result =>
      dsimp only at h₁ ⊢
      unfold Written at h₁
      cases henabled : result.notificationsEnabled with
      | false =>
        rw [henabled] at h₁
        exact .inl h₁
      | true =>
        rw [henabled] at h₁
        have hopened : Opened command w w₁ := h₁
        refine steady_seq (R := fun _ w' => AllTold bot command w') ?_ fun announced w₂ h₂ => ?_
        · refine steady_onDomainError (Y := fun e _ => ∀ error, e ≠ .domain error) ?_ (fun _ _ _ => trivial)
            fun error _ h => absurd rfl (h error)
          exact steady_seq (steady_announce hop hopened.deadline (hopened.marked hmarked)) fun _ _ h => h
        · cases announced with
          | inr error => exact .inr h₂
          | inl delivered =>
            have hother : ¬ (command.operation = .enlist || command.operation = .confirm) := by
              rcases hop with hop | hop <;> simp [hop]
            dsimp only
            rw [if_neg hother]
            exact .inr h₂

/-- A whole attempt tells all recipients if it opens the event, and otherwise leaves them told. -/
theorem steady_process (otherServices : OtherServices) (hop : command.operation.OpensConfirmation)
    (hmarked : MarkedTold command w) :
    steady bot command (fun _ w' => IsOpen command w' → ¬ IsOpen command w ∨ AllTold bot command w →
        AllTold bot command w') (fun _ _ => True) (process bot otherServices command) w := by
  refine steady_seq (steady_respond otherServices hop hmarked) fun reply w₁ h₁ => ?_
  refine steady_seq (R := fun _ w' => Uninvolved bot command w₁ w') ?_ fun _ w' h hopen hstart => ?_
  · unfold whenever
    split
    · exact steady_deliverOnce _ _
    · exact Uninvolved.refl w₁
  · rcases h₁ with hsame | htold
    · rcases hstart with hshut | htold
      · exact absurd ((hsame.trans h).closed hopen) hshut
      · exact (hsame.trans h).allTold htold
    · exact h.allTold htold

/-! ## Runs -/

section Runs

variable {s s₀ : Plant}

/-- What is known of a plant. -/
structure Known (bot : Deployment) (command : OrderedRegistrationCommand) (s : Plant) : Prop where
  marked : MarkedTold command s.world
  opened : HasOpened command s.history → IsOpen command s.world
  resting : (¬ ∃ p, s.Working command.queueGroupId command p) → HasOpened command s.history →
    AllTold bot command s.world
  working : ∀ p, s.Working command.queueGroupId command p →
    steady bot command (fun _ w' => IsOpen command w' →
      HasOpened command s.history ∨ ¬ IsOpen command s.world → AllTold bot command w') (fun _ _ => True)
      p s.world

/-- A step that is no call of the command. -/
theorem spares_step {l : Move} (hattempts : s.Attempts (queue bot otherServices) (fun _ => True) fun _ _ _ => True)
    (hC : SeesThrough bot command s l)
    (hother : ∀ i c next, l = .call command.queueGroupId i →
      ¬ s.Working command.queueGroupId command (.call c next)) :
    SparesOpening bot command s (s.step (queue bot otherServices) storage l).world ∧
      (HasOpened command (s.step (queue bot otherServices) storage l).history → HasOpened command s.history) := by
  have hsame : SparesOpening bot command s s.world := ⟨fun h => h, fun _ => Uninvolved.refl s.world⟩
  cases l with
  | publish job => exact ⟨hsame, fun h => h⟩
  | outside world => exact ⟨hC, fun h => h⟩
  | start lane =>
    rw [Fleet.step]
    split
    · exact ⟨hsame, fun h => h⟩
    · exact ⟨hsame, fun h => h⟩
  | call lane i =>
    rw [Fleet.step]
    split
    · next job c next rest hlane =>
      have hne : job ≠ command := by
        rintro rfl
        have hgroup : job.queueGroupId = lane := (hattempts.oldest hlane).1
        exact hother i c next (hgroup ▸ rfl) ⟨rest, hgroup ▸ hlane⟩
      refine ⟨hC job c ⟨next, rest, hlane⟩ hne, fun h => ?_⟩
      obtain ⟨record, hrecord, hopening⟩ := h
      rcases List.mem_cons.mp hrecord with rfl | hearlier
      · exact absurd hopening.1 hne
      · exact ⟨record, hearlier, hopening⟩
    · exact ⟨hsame, fun h => h⟩
  | finish lane =>
    rw [Fleet.step]
    split
    · next job reply rest hlane =>
      refine ⟨hsame, fun h => ?_⟩
      obtain ⟨record, hrecord, hopening⟩ := h
      rcases List.mem_cons.mp hrecord with rfl | hearlier
      · exact hopening.elim
      · exact ⟨record, hearlier, hopening⟩
    · exact ⟨hsame, fun h => h⟩
  | abandon lane =>
    rw [Fleet.step]
    split
    · exact ⟨hsame, fun h => h⟩
    · exact ⟨hsame, fun h => h⟩

theorem working_unique {lane : String} {job : OrderedRegistrationCommand} {p p' : Act Reply}
    (h : s.Working lane job p) (h' : s.Working lane job p') : p' = p := by
  obtain ⟨rest, hlane⟩ := h
  obtain ⟨rest', hlane'⟩ := h'
  obtain ⟨-, rfl, -⟩ := Lane.working.inj (hlane'.symm.trans hlane)
  rfl

/-- A call of the command. -/
theorem Known.call (h : Known bot command s) {i : Input} {c : Call} {next : c.Ans → Act Reply}
    (hworking : s.Working command.queueGroupId command (.call c next)) :
    Known bot command (s.step (queue bot otherServices) storage (.call command.queueGroupId i)) := by
  obtain ⟨rest, hlane⟩ := hworking
  obtain ⟨honward, hnext⟩ := h.working _ ⟨rest, hlane⟩ s.world (Uninvolved.refl s.world) i trivial
  rw [Fleet.step, hlane]
  have hopened (hnow : HasOpened command (.called command c s.world (c.perform i s.world).1
      (c.perform i s.world).2 :: s.history)) :
      HasOpened command s.history ∨ ¬ IsOpen command s.world ∧ IsOpen command (c.perform i s.world).2 := by
    obtain ⟨record, hrecord, hopening⟩ := hnow
    rcases List.mem_cons.mp hrecord with rfl | hearlier
    · exact .inr hopening.2
    · exact .inl ⟨record, hearlier, hopening⟩
  refine ⟨honward.marked h.marked, fun hnow => ?_, fun hidle => ?_, fun p hp => ?_⟩
  · rcases hopened hnow with hearlier | ⟨-, hopen⟩
    · exact honward.isOpen (h.opened hearlier)
    · exact hopen
  · exact absurd ⟨_, rest, Function.update_self ..⟩ hidle
  · obtain rfl := working_unique ⟨rest, Function.update_self ..⟩ hp
    refine steady_mono hnext (fun _ w' hend hopen hstart => hend hopen ?_) fun _ _ h => h
    rcases hstart with hnow | hshut
    · exact (hopened hnow).imp_right fun h => h.1
    · exact .inr fun h => hshut (honward.isOpen h)

/-- After a step that is no call of the command, an attempt stands where it stood, or it has just started. -/
theorem working_other {l : Move} {p : Act Reply}
    (hother : ∀ i c next, l = .call command.queueGroupId i →
      ¬ s.Working command.queueGroupId command (.call c next))
    (hp : (s.step (queue bot otherServices) storage l).Working command.queueGroupId command p) :
    s.Working command.queueGroupId command p ∨ (¬ ∃ p, s.Working command.queueGroupId command p) ∧
      p = process bot otherServices command ∧ (s.step (queue bot otherServices) storage l).world = s.world := by
  cases hp.proceeds with
  | still hp _ => exact .inl hp
  | outside _ _ hp => exact .inl hp
  | other _ _ _ _ _ _ _ _ hp _ => exact .inl hp
  | own i c next hl hp _ _ => exact absurd hp (hother i c next hl)
  | start hl hwhole hworld =>
    by_cases hworking : ∃ p, s.Working command.queueGroupId command p
    · obtain ⟨p', hp'⟩ := hworking
      cases hp'.goes l with
      | stays hstays => exact .inl (working_unique hstays hp ▸ hp')
      | calls i c next hcall _ _ _ => exact absurd (hl.symm.trans hcall) (by simp)
      | returns reply hfinish _ _ => exact absurd (hl.symm.trans hfinish) (by simp)
      | abandoned habandon => exact absurd (hl.symm.trans habandon) (by simp)
    · exact .inr ⟨hworking, hwhole, hworld⟩

section Other

variable {l : Move}

/-- Where a step that is no call of the command ends an attempt, or finds none, all are told. -/
theorem Known.resting_other (h : Known bot command s) (hC : SeesThrough bot command s l)
    (hspares : Engaged command s → Uninvolved bot command s.world
      (s.step (queue bot otherServices) storage l).world)
    (hother : ∀ i c next, l = .call command.queueGroupId i →
      ¬ s.Working command.queueGroupId command (.call c next))
    (hidle : ¬ ∃ p, (s.step (queue bot otherServices) storage l).Working command.queueGroupId command p)
    (hopened : HasOpened command s.history) :
    AllTold bot command (s.step (queue bot otherServices) storage l).world := by
  by_cases hworking : ∃ p, s.Working command.queueGroupId command p
  · obtain ⟨p, hp⟩ := hworking
    have hsteady := h.working p hp
    cases hp.goes l with
    | stays hp' => exact absurd ⟨p, hp'⟩ hidle
    | calls i c next hl hcall _ _ => exact absurd (hcall ▸ hp) (hother i c next hl)
    | returns reply _ hreply _ =>
      subst hreply
      exact (hspares (.inl hopened)).allTold (hsteady (h.opened hopened) (.inl hopened))
    | abandoned hl =>
      subst hl
      exact (hspares (.inl hopened)).allTold (hC p hp hopened)
  · exact (hspares (.inl hopened)).allTold (h.resting hworking hopened)

/-- An attempt under way is not disturbed by a step of the others. -/
theorem Known.steady_other (h : Known bot command s) {p : Act Reply}
    (hp : s.Working command.queueGroupId command p)
    (huninvolved : Uninvolved bot command s.world (s.step (queue bot otherServices) storage l).world)
    (hhistory : HasOpened command (s.step (queue bot otherServices) storage l).history →
      HasOpened command s.history) :
    steady bot command (fun _ w' => IsOpen command w' →
      HasOpened command (s.step (queue bot otherServices) storage l).history ∨
        ¬ IsOpen command (s.step (queue bot otherServices) storage l).world → AllTold bot command w')
      (fun _ _ => True) p (s.step (queue bot otherServices) storage l).world := by
  have hstable : steady bot command (fun _ w' => IsOpen command w' →
      HasOpened command s.history ∨ ¬ IsOpen command s.world → AllTold bot command w') (fun _ _ => True) p
      (s.step (queue bot otherServices) storage l).world := by
    refine wp_stable (h.working p hp) (fun _ hmoves => huninvolved.trans hmoves) (fun _ hend hopen hstart => ?_)
      fun _ _ => trivial
    exact huninvolved.allTold (hend (huninvolved.closed hopen) hstart)
  refine steady_mono hstable (fun _ w' hend hopen hstart => hend hopen ?_) fun _ _ h => h
  exact hstart.imp hhistory fun hshut hopen => hshut (huninvolved.isOpen hopen)

/-- A step that is no call of the command finds an attempt as it was, starts one or ends one. -/
theorem Known.other (h : Known bot command s)
    (hattempts : s.Attempts (queue bot otherServices) (fun _ => True) fun _ _ _ => True)
    (hop : command.operation.OpensConfirmation) (hC : SeesThrough bot command s l)
    (hother : ∀ i c next, l = .call command.queueGroupId i →
      ¬ s.Working command.queueGroupId command (.call c next)) :
    Known bot command (s.step (queue bot otherServices) storage l) := by
  obtain ⟨⟨hmarked, hspares⟩, hhistory⟩ := spares_step hattempts hC hother
  refine ⟨hmarked h.marked, fun hnow => ?_, fun hidle hnow => ?_, fun p hp => ?_⟩
  · exact (hspares (.inl (hhistory hnow))).isOpen (h.opened (hhistory hnow))
  · exact h.resting_other hC hspares hother hidle (hhistory hnow)
  · rcases working_other hother hp with hp | ⟨hnone, rfl, hworld⟩
    · exact h.steady_other hp (hspares (.inr ⟨p, hp⟩)) hhistory
    · rw [hworld]
      refine steady_mono (steady_process otherServices hop h.marked) (fun _ w' hend hopen hstart => hend hopen ?_)
        fun _ _ h => h
      rcases hstart with hnow | hshut
      · exact .inr (h.resting hnone (hhistory hnow))
      · exact .inl hshut

end Other

theorem known_reached (hop : command.operation.OpensConfirmation) (hidle : s₀.Idle) (hnew : s₀.history = [])
    (hmarked : MarkedTold command s₀.world)
    (hs : Fleet.Reaches (queue bot otherServices) storage (SeesThrough bot command) s₀ s) :
    Known bot command s := by
  induction hs with
  | refl =>
    have hnone : ¬ HasOpened command s₀.history := by
      rintro ⟨record, hrecord, -⟩
      rw [hnew] at hrecord
      exact absurd hrecord List.not_mem_nil
    refine ⟨hmarked, fun h => absurd h hnone, fun _ h => absurd h hnone, fun p hp => ?_⟩
    obtain ⟨rest, hlane⟩ := hp
    rw [hidle] at hlane
    cases hlane
  | @step s l hs hl ih =>
    by_cases hown : ∃ i c next, l = .call command.queueGroupId i ∧
        s.Working command.queueGroupId command (.call c next)
    · obtain ⟨i, c, next, rfl, hworking⟩ := hown
      exact ih.call hworking
    · exact ih.other (hs.grouped hidle) hop hl fun i c next hcall hworking => hown ⟨i, c, next, hcall, hworking⟩

end Runs

/-! ## A lost opening -/

section Samples

instance : Decidable (IsOpen command w) :=
  inferInstanceAs (Decidable (_ = _))

instance {identity : BotIdentity} : Decidable (Told command w identity) :=
  inferInstanceAs (Decidable (∃ d ∈ w.sent, _))

instance : DecidablePred (IsOpening command)
  | .called job _ before _ after =>
    inferInstanceAs (Decidable (job = command ∧ ¬ IsOpen command before ∧ IsOpen command after))
  | .finished _ _ => .isFalse fun h => h

instance {history : List (Record ports Reply OrderedRegistrationCommand World)} :
    Decidable (HasOpened command history) :=
  inferInstanceAs (Decidable (∃ record ∈ history, IsOpening command record))

/-- Nothing happens but the attempts at one command. -/
def IsAlone (command : OrderedRegistrationCommand) : Move → Prop
  | .publish job => job = command
  | .outside _ => False
  | _ => True

instance : DecidablePred (IsAlone command)
  | .publish job => inferInstanceAs (Decidable (job = command))
  | .outside _ => .isFalse fun h => h
  | .start _ | .call _ _ | .finish _ | .abandon _ => .isTrue trivial

/-- Besides, no attempt is given up when one has opened the event. -/
def IsAloneUntilOpened (command : OrderedRegistrationCommand) (s : Plant) : Move → Prop
  | .abandon _ => ¬ HasOpened command s.history
  | l => IsAlone command l

instance {s : Plant} : DecidablePred (IsAloneUntilOpened command s)
  | .abandon _ => inferInstanceAs (Decidable (¬ HasOpened command s.history))
  | .publish job => inferInstanceAs (Decidable (IsAlone command (.publish job)))
  | .outside world => inferInstanceAs (Decidable (IsAlone command (.outside world)))
  | .start _ | .call _ _ | .finish _ => .isTrue trivial

theorem seesThrough_alone {s₀ s : Plant} (hidle : s₀.Idle)
    (hs : Fleet.Reaches (queue bot otherServices) storage (IsAloneUntilOpened command) s₀ s) :
    Fleet.Reaches (queue bot otherServices) storage (SeesThrough bot command) s₀ s := by
  refine hs.reached.mono fun s l hstep => ?_
  obtain ⟨halone, hreached⟩ := hstep
  have hjobs := (hreached.rule (K := (· = command)) (R := fun _ _ _ => True) (fun _ => True) (fun _ _ => True)
    hidle trivial (Along.of_forall fun _ _ => trivial) (fun _ _ h => h) (fun _ _ h => h.elim)
    (fun _ _ _ => trivial) (fun _ _ _ _ _ _ _ _ _ _ _ _ => ⟨trivial, trivial, trivial⟩)
    (fun _ _ _ _ _ _ _ _ _ => trivial) fun _ _ _ _ _ _ => trivial).2.2
  cases l with
  | outside world => exact halone.elim
  | call lane i =>
    intro job c hcalls hne
    obtain ⟨next, rest, hlane⟩ := hcalls
    exact absurd (hjobs.oldest hlane).2 hne
  | abandon lane => exact fun _ _ hopened => absurd hopened halone
  | _ => trivial

def openingCommand : OrderedRegistrationCommand where
  operationId := "op-1"
  eventId := "game"
  operation := .openConfirmation
  platform := .telegram
  platformUserId := 1
  payload := .confirmationDeadline 1800000000000000

/-- A game of master 1, with one waiting player behind the account 2. -/
def openingWorld : World where
  users := ⟨[.telegram { tgId := 1 }, .telegram { tgId := 2 }], by decide⟩
  events := ⟨[{ eventId := "game", name := "Игра" }], by decide⟩
  leaders := ⟨[("game", ⟨.telegram, 1⟩)], by decide⟩
  registrations := ⟨[{
    eventId := "game"
    participantKey := sampleBot.keyOf ⟨.telegram, 2⟩ "game"
    displayName := "Иванов Иван"
    wishPlay := "" }], by decide⟩

def openingPlant (schedule : List Move) : Plant :=
  Fleet.play (queue sampleBot noServices) storage { world := openingWorld } schedule

/-- The first attempt opens the confirmation and dies on the message to the player. -/
def failingMoves : List Move :=
  .publish openingCommand :: Fleet.attempt "game" 20 (answering fun _ _ => .failed) (.abandon "game") ++
    .start "game" :: List.replicate 20 (.call "game" (goodDay 1))

/-- The messenger takes everything, but the first attempt is cut off behind its write. -/
def cutOffMoves : List Move :=
  .publish openingCommand :: Fleet.attempt "game" 6 (goodDay 0) (.abandon "game") ++
    .start "game" :: List.replicate 20 (.call "game" (goodDay 1))

/-- The first attempt is cut off before its write. -/
def seenMoves : List Move :=
  .publish openingCommand :: Fleet.attempt "game" 3 (goodDay 0) (.abandon "game") ++
    .start "game" :: List.replicate 20 (.call "game" (goodDay 1))

/-- Nothing but attempts at the command: one of them has opened the event, another one is about to be deleted,
and a recipient has not been told. -/
structure Loses (schedule : List Move) : Prop where
  alone : ∀ l ∈ schedule, IsAlone openingCommand l
  returns : ∃ reply, (openingPlant schedule).Returns "game" openingCommand reply
  opened : HasOpened openingCommand (openingPlant schedule).history
  recipient : ⟨.telegram, 2⟩ ∈ openingRecipients sampleBot openingCommand (openingPlant schedule).world
  untold : ¬ Told openingCommand (openingPlant schedule).world ⟨.telegram, 2⟩

theorem loses_of_check {schedule : List Move} (hreturns : returnsNext (openingPlant schedule) "game" openingCommand)
    (hlost : (∀ l ∈ schedule, IsAlone openingCommand l) ∧
      HasOpened openingCommand (openingPlant schedule).history ∧
      ⟨.telegram, 2⟩ ∈ openingRecipients sampleBot openingCommand (openingPlant schedule).world ∧
      ¬ Told openingCommand (openingPlant schedule).world ⟨.telegram, 2⟩) :
    Loses schedule := by
  obtain ⟨halone, hopened, hrecipient, huntold⟩ := hlost
  exact ⟨halone, returns_of_check hreturns, hopened, hrecipient, huntold⟩

theorem seenMoves_reached : Fleet.Reaches (queue sampleBot noServices) storage
    (SeesThrough sampleBot openingCommand) { world := openingWorld } (openingPlant seenMoves) :=
  seesThrough_alone (fun _ => rfl) (Fleet.Reaches.refl.play_meets (by decide +kernel))

end Samples

end LarpBot
