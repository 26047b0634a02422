import LarpBot.Foundation.Traces
import LarpBot.Laws.Writes

/-!
# The calls of a notification

The notices that follow a mutation read, send, and mark what they have delivered under the operation
id of their command. They write no registration and no field of an event but the marks, so a command
that has written its mutation only announces it from then on.
-/

namespace LarpBot

open Atomic Act
open Prog (Makes)

/-- The calls of the notices of a command: maintenance, messages, and the marks of deliveries.
Nothing is published. -/
def Call.IsNotice (legal : Legal) (operationId : OperationId) (c : Call) : Prop :=
  match c with
  | .outside (.publish _) => False
  | .users _ | .outside _ | .markParticipationNotificationDelivered _ _ _ => True
  | .events c => match c with
    | .markReservePromotionDelivered _ op | .markConfirmedLinkPromotionDelivered _ op
    | .markParticipantRemovalDelivered _ op _ => op = operationId
    | c => (Call.events c).IsMaintenance legal
  | c => c.IsMaintenance legal

variable {legal : Legal} {command : OrderedRegistrationCommand} {operationId : OperationId}
  {α : Type} {p : Act α} {Q : α → Prop}

theorem Call.IsMaintenance.isNotice {c : Call} (hc : c.IsMaintenance legal) :
    c.IsNotice legal operationId := by
  cases c with
  | events c => cases c <;> first | exact hc | exact hc.elim
  | users c => trivial
  | outside c => cases c <;> trivial
  | markParticipationNotificationDelivered => trivial
  | _ => exact hc

theorem Call.IsNotice.leavesRegistrations {c : Call} (hc : c.IsNotice legal operationId) :
    c.LeavesRegistrations legal := by
  cases c with
  | registrations c => exact hc
  | _ => trivial

theorem Call.IsNotice.mayCall {c : Call} (hc : c.IsNotice legal command.operationId) :
    command.MayCall legal c := by
  cases c with
  | events c => cases c <;> first | exact hc | exact hc.elim
  | registrations c => exact Call.IsMaintenance.mayCall hc
  | outside c => cases c <;> trivial
  | _ => trivial

theorem notice_of_maintenance (hp : makes legal (Call.IsMaintenance legal) Q p) :
    makes legal (Call.IsNotice legal operationId) Q p :=
  makes_mono hp fun _ => Call.IsMaintenance.isNotice

theorem notice_of_reads (hp : makes legal Call.IsRead Q p) :
    makes legal (Call.IsNotice legal operationId) Q p :=
  notice_of_maintenance (maintenance_of_reads hp)

variable (bot : Deployment)

/-! ## Messages -/

theorem notice_deliver (platform : Platform) (userId : Nat) (requestId text : String)
    (buttons : List Button) :
    makes legal (Call.IsNotice legal operationId) (fun _ => True)
      (deliver platform userId requestId text buttons) := by
  refine makes_call trivial fun outcome _ => ?_
  cases outcome <;> trivial

theorem notice_deliverAll (platform : Platform) (userId : Nat) (buttons : List Button)
    (messages : List (String × String)) :
    makes legal (Call.IsNotice legal operationId) (fun _ => True)
      (deliverAll platform userId buttons messages) := by
  induction messages with
  | nil => trivial
  | cons message rest ih =>
    refine (notice_deliver platform userId message.1 message.2 buttons).bind fun reached _ => ?_
    cases reached
    · trivial
    · exact ih.bind fun _ _ => trivial

theorem notice_claimDelivery (platform : Platform) (userId : Nat) (requestId : String)
    (buttons : List Button) :
    makes legal (Call.IsNotice legal operationId) (fun _ => True)
      (claimDelivery platform userId requestId buttons) :=
  makes_call trivial fun _ _ => trivial

theorem notice_deliverOnce (text : String) (buttons : List Button) :
    makes legal (Call.IsNotice legal operationId) (fun _ => True)
      (deliverOnce command text buttons) := by
  unfold deliverOnce
  split
  · trivial
  · refine makes_call trivial fun user _ => ?_
    split
    · trivial
    · refine (notice_deliver _ _ _ _ _).bind fun reached _ => ?_
      cases reached
      · trivial
      · exact notice_claimDelivery _ _ _ _

/-! ## The notices -/

theorem notice_notifyOne (broadcast : Broadcast) (user : User) :
    makes legal (Call.IsNotice legal operationId) (fun _ => True)
      (notifyOne operationId broadcast user) := by
  simp only [notifyOne]
  split
  · trivial
  · refine (notice_deliver _ _ _ _ _).bind fun _ _ => ?_
    exact (notice_claimDelivery _ _ _ _).bind fun _ _ => trivial

theorem notice_broadcastOf (event : Event) :
    makes legal (Call.IsNotice legal operationId) (fun _ => True)
      (broadcastOf bot command event) := by
  unfold broadcastOf
  split
  · trivial
  · trivial
  · split <;> trivial

theorem notice_notify :
    makes legal (Call.IsNotice legal command.operationId) (fun _ => True) (notify bot command) := by
  refine (notice_of_reads (reads_notifiedEvent _)).bind fun event hevent => ?_
  refine (notice_broadcastOf bot event).bind fun broadcast _ => ?_
  refine (notice_of_maintenance (maintenance_recipients bot hevent.2 _ _)).bind fun users _ => ?_
  exact Makes.bind (Makes.traverse fun user _ => notice_notifyOne broadcast user) fun _ _ => trivial

theorem notice_notifyConfirmingParticipant (text : String) (buttons : List Button) :
    makes legal (Call.IsNotice legal command.operationId) (fun _ => True)
      (notifyConfirmingParticipant bot command text buttons) := by
  refine makes_call trivial fun user _ => ?_
  dsimp only
  split
  · trivial
  · refine (notice_of_reads (reads_notifiedEvent _)).bind fun event _ => ?_
    refine (notice_deliver _ _ _ _ _).bind fun reached _ => ?_
    cases reached
    · exact (notice_claimDelivery _ _ _ _).bind fun _ _ => trivial
    · refine makes_call trivial fun rows _ => ?_
      refine (notice_deliverAll _ _ _ _).bind fun _ _ => ?_
      exact (notice_claimDelivery _ _ _ _).bind fun _ _ => trivial

theorem notice_notifyReservePromotion (eventId : EventId) :
    makes legal (Call.IsNotice legal command.operationId) (fun _ => True)
      (notifyReservePromotion bot command eventId) := by
  refine (notice_of_reads (reads_notifiedEvent _)).bind fun event _ => ?_
  split
  · split
    · trivial
    · refine makes_call trivial fun profiles _ => ?_
      split
      · trivial
      · dsimp only
        split
        · trivial
        · refine (makes_value _).bind fun links _ => (notice_deliver _ _ _ _ _).bind fun _ _ => ?_
          refine makes_call rfl fun _ _ => (makes_value _).bind fun _ _ => ?_
          exact (notice_claimDelivery _ _ _ _).bind fun _ _ => trivial
  · trivial

theorem notice_notifyConfirmedLinkPromotion (eventId : EventId) :
    makes legal (Call.IsNotice legal command.operationId) (fun _ => True)
      (notifyConfirmedLinkPromotion bot command eventId) := by
  refine (notice_of_reads (reads_notifiedEvent _)).bind fun event _ => ?_
  split
  · split
    · trivial
    · refine makes_call trivial fun profiles _ => ?_
      split
      · trivial
      · refine (notice_deliverAll _ _ _ _).bind fun sent _ => ?_
        refine makes_call rfl fun _ _ => (makes_value _).bind fun _ _ => ?_
        refine Makes.bind (Q := fun _ => True) ?_ fun _ _ => trivial
        split
        · trivial
        · exact notice_claimDelivery _ _ _ _
  · trivial

theorem notice_notifyMasters (eventId : EventId) (key : ParticipantKey) (text : String)
    (buttons : List Button) (seen masters : List BotIdentity) :
    makes legal (Call.IsNotice legal command.operationId) (fun _ => True)
      (notifyMasters command eventId key text buttons seen masters) := by
  induction masters generalizing seen with
  | nil => trivial
  | cons identity rest ih =>
    refine (notice_of_reads (reads_identitiesForLocalUser _ _)).bind fun identities _ => ?_
    split
    · exact ih seen
    · refine makes_call trivial fun done _ => ?_
      split
      · exact ih _
      · refine (notice_deliver _ _ _ _ _).bind fun reached _ => makes_call trivial fun _ _ => ?_
        refine (makes_whenever (notice_claimDelivery _ _ _ _)).bind fun _ _ => ?_
        exact (ih _).bind fun _ _ => trivial

theorem notice_notifyMastersOfParticipation :
    makes legal (Call.IsNotice legal command.operationId) (fun _ => True)
      (notifyMastersOfParticipation bot command) := by
  refine (notice_of_reads (reads_notifiedEvent _)).bind fun event _ => ?_
  split
  · trivial
  · refine makes_call trivial fun stored _ => ?_
    dsimp only
    split
    · trivial
    · refine makes_call trivial fun rows _ => (makes_found _).bind fun position _ => ?_
      split
      · trivial
      · refine (notice_of_reads (reads_identitiesForLocalUser _ _)).bind fun actor _ => ?_
        refine (notice_of_reads (reads_eventMasterRecords bot _)).bind fun records _ => ?_
        exact notice_notifyMasters _ _ _ _ _ _

theorem notice_cancellationMasters (eventId : EventId) :
    makes legal (Call.IsNotice legal operationId) (fun _ => True)
      (cancellationMasters bot eventId command) :=
  (notice_of_reads (reads_eventMasterRecords bot eventId)).bind fun _ _ => trivial

theorem notice_commandPlayerName :
    makes legal (Call.IsNotice legal operationId) (fun _ => True) (commandPlayerName command) := by
  refine makes_call trivial fun user _ => ?_
  cases user <;> trivial

theorem notice_notifyMastersOfCancellation :
    makes legal (Call.IsNotice legal command.operationId) (fun _ => True)
      (notifyMastersOfCancellation bot command) := by
  refine (notice_of_reads (reads_notifiedEvent _)).bind fun event _ => ?_
  dsimp only
  split
  · trivial
  · refine makes_call trivial fun registration _ => ?_
    refine Makes.bind (Q := fun _ => True) ?_ fun name _ => ?_
    · split
      · trivial
      · exact notice_commandPlayerName
    · refine (notice_cancellationMasters bot _).bind fun masters _ => ?_
      refine Makes.bind (Makes.traverse (R := fun _ => True) fun record _ => ?_) fun _ _ => trivial
      split
      · trivial
      · refine (notice_deliver _ _ _ _ _).bind fun _ _ => ?_
        refine makes_call rfl fun _ _ => (makes_value _).bind fun _ _ => ?_
        exact (notice_claimDelivery _ _ _ _).bind fun _ _ => trivial

theorem notice_telegramAccount (event : Event) (key : Option ParticipantKey) :
    makes legal (Call.IsNotice legal operationId) (fun _ => True)
      (telegramAccount bot command event key) := by
  unfold telegramAccount
  split
  · trivial
  · refine makes_call trivial fun user _ => ?_
    refine Makes.bind (Q := fun _ => True) ?_ fun profiles _ => ?_
    · split
      · trivial
      · exact makes_any (notice_of_reads (reads_globalUsers _))
    · dsimp only
      split
      · trivial
      · refine makes_call trivial fun registration _ => ?_
        split
        · trivial
        · exact makes_call trivial fun _ _ => trivial

theorem notice_kickCancelledParticipant (eventId : EventId) (confirmed : Option Bool) :
    makes legal (Call.IsNotice legal operationId) (fun _ => True)
      (kickCancelledParticipant bot command eventId confirmed) := by
  refine (notice_of_reads (reads_notifiedEvent _)).bind fun event _ => ?_
  split
  · trivial
  · dsimp only
    generalize (if (confirmed.isSome || decide (event.lastParticipantRemovalOperationId ≠
      some command.operationId)) then none else snapshotCancellation event) = cancellation
    split
    · refine (notice_telegramAccount bot event _).bind fun account _ => ?_
      cases account with
      | none => trivial
      | some userId => exact makes_call trivial fun _ _ => makes_any (makes_present _ _)
    · trivial

theorem notice_notifyMastersOfReplacedParticipation (eventId : EventId) :
    makes legal (Call.IsNotice legal command.operationId) (fun _ => True)
      (notifyMastersOfReplacedParticipation bot command eventId) := by
  refine (notice_of_reads (reads_notifiedEvent _)).bind fun event _ => ?_
  refine notice_commandPlayerName.bind fun name _ => ?_
  refine (notice_cancellationMasters bot _).bind fun masters _ => ?_
  refine Makes.bind (Makes.traverse (R := fun _ => True) fun record _ => ?_) fun _ _ => trivial
  dsimp only
  split
  · trivial
  · refine (notice_deliver _ _ _ _ _).bind fun _ _ => ?_
    exact (notice_claimDelivery _ _ _ _).bind fun _ _ => trivial

theorem notice_deliverEntry (event : Event) (entry : String) (user : User)
    (messages : List (String × String)) :
    makes legal (Call.IsNotice legal command.operationId) (fun _ => True)
      (deliverEntry command event entry user messages) := by
  refine (notice_deliverAll _ _ _ _).bind fun sent _ => ?_
  refine makes_call rfl fun _ _ => (makes_value _).bind fun _ _ => ?_
  exact (notice_claimDelivery _ _ _ _).bind fun _ _ => trivial

theorem notice_notifyCapacityPromotions :
    makes legal (Call.IsNotice legal command.operationId) (fun _ => True)
      (notifyCapacityPromotions bot command) := by
  refine (notice_of_reads (reads_notifiedEvent _)).bind fun event _ => ?_
  split
  · trivial
  · refine makes_call trivial fun rows _ => makes_call trivial fun profiles _ => ?_
    refine Makes.bind (Makes.traverse (R := fun _ => True) fun key _ => ?_) fun _ _ => trivial
    dsimp only
    split
    · trivial
    · exact (makes_value _).bind fun _ _ => notice_deliverEntry event key _ _

theorem notice_notifyRemovedParticipants :
    makes legal (Call.IsNotice legal command.operationId) (fun _ => True)
      (notifyRemovedParticipants bot command) := by
  refine (notice_of_reads (reads_notifiedEvent _)).bind fun event _ => ?_
  split
  · trivial
  · refine makes_call trivial fun profiles _ => ?_
    refine Makes.bind (Makes.traverse (R := fun _ => True) fun key _ => ?_) fun _ _ => trivial
    split
    · trivial
    · exact notice_deliverEntry event key _ _

theorem notice_notifySiftedParticipants :
    makes legal (Call.IsNotice legal command.operationId) (fun _ => True)
      (notifySiftedParticipants bot command) := by
  refine (notice_of_reads (reads_notifiedEvent _)).bind fun event _ => ?_
  split
  · trivial
  · refine makes_call trivial fun profiles _ => makes_call trivial fun rows _ => ?_
    refine Makes.bind (Makes.traverse (R := fun _ => True) fun entry _ => ?_) fun _ _ => trivial
    dsimp only
    split
    · trivial
    · split
      · trivial
      · exact (makes_value _).bind fun _ _ => notice_deliverEntry event entry _ _

/-! ## The worker -/

theorem notice_announceConfirmation (result : MutationResult) :
    makes legal (Call.IsNotice legal command.operationId) (fun _ => True)
      (announceConfirmation bot command result) := by
  refine (notice_notifyConfirmingParticipant bot _ _).bind fun _ _ => ?_
  split
  · trivial
  · refine (notice_kickCancelledParticipant bot _ _).bind fun _ _ => ?_
    refine (notice_notifyReservePromotion bot _).bind fun _ _ => ?_
    refine (notice_notifyConfirmedLinkPromotion bot _).bind fun _ _ => ?_
    exact (notice_notifyMastersOfReplacedParticipation bot _).bind fun _ _ => trivial

theorem notice_announceRoster :
    makes legal (Call.IsNotice legal command.operationId) (fun _ => True)
      (announceRoster bot command) := by
  refine (makes_whenever ?_).bind fun _ _ => (makes_whenever ?_).bind fun _ _ =>
    (makes_whenever ?_).bind fun _ _ => makes_whenever ?_
  · exact (notice_notifyRemovedParticipants bot).bind fun _ _ => trivial
  · exact (notice_notifySiftedParticipants bot).bind fun _ _ => trivial
  · refine (notice_notifyReservePromotion bot _).bind fun _ _ => ?_
    exact (notice_notifyConfirmedLinkPromotion bot _).bind fun _ _ => trivial
  · refine (notice_kickCancelledParticipant bot _ _).bind fun _ _ => ?_
    exact (notice_notifyMastersOfCancellation bot).bind fun _ _ => trivial

theorem notice_announce (result : MutationResult) :
    makes legal (Call.IsNotice legal command.operationId) (fun _ => True)
      (announce bot command result) := by
  unfold announce
  split
  · exact (notice_notify bot).bind fun _ _ => trivial
  · split
    · exact (notice_announceConfirmation bot result).bind fun _ _ => trivial
    all_goals first
      | exact (notice_announceRoster bot).bind fun _ _ => trivial
      | exact (notice_notifyCapacityPromotions bot).bind fun _ _ => trivial
      | trivial

theorem notice_announceParticipation (reply : Reply) :
    makes legal (Call.IsNotice legal command.operationId) (fun _ => True)
      (announceParticipation bot command reply) := by
  refine (makes_whenever (notice_deliverOnce _ _)).bind fun _ _ => makes_onDomainError ?_ ?_
  · exact (notice_notifyMastersOfParticipation bot).bind fun _ _ => trivial
  · exact fun _ => trivial

variable {otherServices : OtherServices} {P : Call → Prop}

/-- The mutation of a command, with its domain errors as answers. -/
def mutation (otherServices : OtherServices) (command : OrderedRegistrationCommand) :
    Act (Sum MutationResult DomainError) :=
  onDomainError (do
    let result ← mutate bot otherServices command
    return Sum.inl result)
  fun error => return Sum.inr error

/-- After its mutation an attempt makes calls of notices only. -/
theorem process_split (otherServices : OtherServices) (command : OrderedRegistrationCommand) :
    ∃ rest : Sum MutationResult DomainError → Act Reply,
      process bot otherServices command = (mutation bot otherServices command).bind rest ∧
      ∀ legal outcome, makes legal (Call.IsNotice legal command.operationId) (fun _ => True)
        (rest outcome) := by
  refine ⟨_, Prog.bind_assoc _ _ _, fun legal outcome => ?_⟩
  refine Makes.bind (Q := fun _ => True) ?_ fun reply _ => ?_
  swap
  · exact (makes_whenever (notice_deliverOnce _ _)).bind fun _ _ => trivial
  cases outcome with
  | inr error => trivial
  | inl result =>
    dsimp only
    split
    · trivial
    · refine Makes.bind (Q := fun _ => True) (makes_onDomainError ?_ fun _ => trivial)
        fun announced _ => ?_
      · exact (notice_announce bot result).bind fun _ _ => trivial
      · cases announced with
        | inr error => trivial
        | inl delivered =>
          dsimp only
          split
          · exact notice_announceParticipation bot _
          · trivial

/-- An attempt makes the calls of its mutation, and then those of its notices. -/
theorem makes_process (hmutate : makes legal P (fun _ => True) (mutate bot otherServices command))
    (hnotice : ∀ c, c.IsNotice legal command.operationId → P c) :
    makes legal P (fun _ => True) (process bot otherServices command) := by
  obtain ⟨rest, hprocess, hrest⟩ := process_split bot otherServices command
  rw [hprocess]
  have hmutation : makes legal P (fun _ => True) (mutation bot otherServices command) :=
    makes_onDomainError (hmutate.bind fun _ _ => trivial) fun _ => trivial
  exact hmutation.bind fun outcome _ => makes_mono (hrest legal outcome) hnotice

/-- A mutation that justifies its calls by earlier ones, in an attempt. -/
theorem traced_process {A : (c : Call) → c.Ans → Prop} {T : List ports.Entry → Call → Prop}
    (hanswer : ∀ c a, A c a → Plausible legal c a)
    (hmutate : (mutate bot otherServices command).Traced A T (fun _ _ => True) (fun _ _ => True) [])
    (hnotice : ∀ made c, c.IsNotice legal command.operationId → T made c) :
    (process bot otherServices command).Traced A T (fun _ _ => True) (fun _ _ => True) [] := by
  obtain ⟨rest, hprocess, hrest⟩ := process_split bot otherServices command
  rw [hprocess]
  have hmutation : (mutation bot otherServices command).Traced A T (fun _ _ => True)
      (fun _ _ => True) [] := by
    refine Prog.Traced.catching (Y := fun _ _ => True) ?_ fun made e _ => ?_
    · exact hmutate.bind fun _ _ _ => trivial
    · cases e <;> trivial
  refine hmutation.bind fun made outcome _ => ?_
  have hnotices := Makes.mono (hrest legal outcome) hanswer (fun _ h => h) fun _ _ => trivial
  exact (hnotices.traced made).mono (fun made' c hc => hnotice made' c hc.2) (fun _ _ _ => trivial)
    fun _ _ _ => trivial

end LarpBot
