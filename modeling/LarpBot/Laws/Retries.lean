import LarpBot.Laws.QueueOrder

/-!
# Retries

Each row remembers the last operation that wrote it, and a write whose operation is already there
leaves the row alone. So a command that is delivered again does nothing to the registrations as long
as all the rows it names still carry its operation id, and the row that it replaces is still gone
(`RegistrationCall.Carries`).

A confirmation waits in the lane of its player and the other commands of the player in the lane of
the game, so another command may stamp the row between two attempts. Then the retry writes a second
time, over whatever the other command has stored (`overwriting_reached`).
-/

namespace LarpBot

open Atomic

/-- The stored rows of an event under some keys carry an operation id. -/
def Registrations.Stamped (t : Registrations) (e : EventId) (keys : List ParticipantKey)
    (op : OperationId) : Prop :=
  ∀ row ∈ t.rows, row.eventId = e → row.participantKey ∈ keys → row.lastOperationId = op

/-- What a write would write is stored, as far as the operation ids tell. -/
def RegistrationCall.Carries (t : Registrations) : RegistrationCall → Prop
  | .enlist e a => ∃ row ∈ t.rows, row.key = (e, a.participantKey) ∧
      row.lastOperationId = a.operationId
  | .updateProfile e op key _ | .updateCharacterWish e op key _ | .updateCoPlayerWish e op key _
  | .cancel e op key => t.Stamped e [key] op
  | .updateLinkedCharacterWish e op keys _ | .updateLinkedCoPlayerWish e op keys _
  | .cancelLinked e op keys => t.Stamped e keys op
  | .confirm e op key _ replaced replacedKey => t.Stamped e [key] op ∧
      ∀ e' ∈ replaced, ∀ key' ∈ replacedKey, ∀ row ∈ t.rows, row.key ≠ (e', key')
  | .confirmLinked e op keys _ replaced replacedKeys => t.Stamped e keys op ∧
      ∀ e' ∈ replaced, t.Stamped e' replacedKeys op
  | _ => True

/-- The writes that carry a command out. -/
def OrderedRegistrationCommand.Executes (command : OrderedRegistrationCommand) :
    RegistrationCall → Bool
  | .enlist _ _ => command.operation = .enlist
  | .updateProfile _ _ _ _ => command.operation = .updateProfile
  | .updateCharacterWish _ _ _ _ | .updateLinkedCharacterWish _ _ _ _ =>
    command.operation = .updateCharacterWish
  | .updateCoPlayerWish _ _ _ _ | .updateLinkedCoPlayerWish _ _ _ _ =>
    command.operation = .updateCoPlayerWish
  | .cancel _ _ _ | .cancelLinked _ _ _ => command.operation = .cancel
  | .confirm _ _ _ _ _ _ | .confirmLinked _ _ _ _ _ _ => command.operation = .confirm
  | _ => false

/-- What the worker has done so far. -/
abbrev Journal := List (Record ports Reply OrderedRegistrationCommand World)

/-- An attempt of the command has changed the registrations. -/
def OrderedRegistrationCommand.applied (command : OrderedRegistrationCommand)
    (history : Journal) : Bool :=
  history.any fun
    | .called job (.registrations c) before _ after =>
      job.operationId = command.operationId && job.Executes c &&
        before.registrations.rows ≠ after.registrations.rows
    | _ => false

/-- A command that has changed the registrations does not change them again. -/
def NeverAgain : Record ports Reply OrderedRegistrationCommand World → Journal → Prop
  | .called command (.registrations c) before _ after, earlier =>
    command.Executes c = true → command.applied earlier = true →
      after.registrations = before.registrations
  | _, _ => True

/-- A command that is about to write again finds its operation id where it left it. -/
def OrderedRegistrationCommand.FindsStamps (command : OrderedRegistrationCommand)
    (history : Journal) (t : Registrations) : Call → Prop
  | .registrations c =>
    command.Executes c = true → command.applied history = true → c.Carries t
  | _ => True

/-- No command stamps the rows of another one that is to be delivered again. -/
def KeepsStamps (s : Plant) : Move → Prop
  | .call lane _ => ∀ next ∈ s.pending lane,
      next.1.FindsStamps s.history s.world.registrations next.2
  | _ => True

/-! ## Writes that find their stamp -/

section Stamped

variable {t : Registrations} {now : Time} {e : EventId} {op : OperationId} {key : ParticipantKey}
  {keys : List ParticipantKey} {f : Registration → Registration}
  (hf : ∀ row, (f row).key = row.key)

theorem stampOne_of_stamped (h : t.Stamped e [key] op) : (t.stampOne now e key op f hf).2 = t := by
  unfold Registrations.stampOne
  split
  · rfl
  · next row hrow =>
    obtain ⟨hevent, hkey⟩ := Prod.mk.inj (Registrations.key_of_get hrow)
    rw [if_pos (h row (Registrations.mem_of_get hrow) hevent (List.mem_singleton.mpr hkey))]

theorem stampExisting_of_stamped (h : t.Stamped e [key] op) :
    (t.stampExisting now e key op f hf).2 = t := by
  unfold Registrations.stampExisting
  split
  · rfl
  · exact stampOne_of_stamped _ h

theorem stampMany_of_stamped (h : t.Stamped e keys op) : (t.stampMany now e keys op f hf).2 = t := by
  refine Table.ext ?_
  show t.rows.map _ = t.rows
  refine (List.map_congr_left fun row hrow => ?_).trans (List.map_id _)
  have hnone : Registrations.unstamped e keys op row = false := by
    by_contra hstale
    simp only [Registrations.unstamped, Bool.not_eq_false, Bool.and_eq_true, decide_eq_true_eq] at hstale
    exact hstale.2 (h row hrow hstale.1.1 hstale.1.2)
  rw [hnone]
  rfl

theorem confirm_of_stamped {wish : String} {replaced : Option EventId}
    {replacedKey : Option ParticipantKey} (h : t.Stamped e [key] op)
    (hgone : ∀ e' ∈ replaced, ∀ key' ∈ replacedKey, ∀ row ∈ t.rows, row.key ≠ (e', key')) :
    (t.confirm now e op key wish replaced replacedKey).2 = t := by
  unfold Registrations.confirm
  split
  · rfl
  · split
    · rfl
    · split
      · rfl
      · dsimp only
        split
        · next h' key' =>
          rw [Table.erase_of_forall (hgone _ rfl _ rfl)]
          exact stampOne_of_stamped _ h
        · exact stampOne_of_stamped _ h

theorem confirmLinked_of_stamped {wish : String} {replaced : Option EventId}
    {replacedKeys : List ParticipantKey} (h : t.Stamped e keys op)
    (hreplaced : ∀ e' ∈ replaced, t.Stamped e' replacedKeys op) :
    (t.confirmLinked now e op keys wish replaced replacedKeys).2 = t := by
  unfold Registrations.confirmLinked
  split
  · rfl
  · split
    · rfl
    · cases replaced with
      | none => exact stampMany_of_stamped (f := Registrations.confirmRow wish) (fun _ => rfl) h
      | some e' =>
        have hkept : (t.stampMany now e' replacedKeys op Registrations.cancelRow fun _ => rfl).2 = t :=
          stampMany_of_stamped _ (hreplaced e' rfl)
        dsimp only
        rw [hkept]
        exact stampMany_of_stamped _ h

theorem enlist_of_stamped {a : Registrations.EnlistArguments}
    (h : (RegistrationCall.enlist e a).Carries t) : (t.enlist now e a).2 = t := by
  obtain ⟨row, hrow, hkey, hop⟩ := h
  have hget : t.get e a.participantKey = some row := Table.find?_eq_some_iff.mpr ⟨hrow, hkey⟩
  unfold Registrations.enlist
  rw [hget]
  dsimp only
  rw [if_pos hop]

/-- A write that finds its operation id everywhere leaves the registrations as they are. -/
theorem perform_of_carries {command : OrderedRegistrationCommand} {c : RegistrationCall}
    (hc : command.Executes c = true) (h : c.Carries t) : (c.perform now t).2 = t := by
  cases c with
  | enlist => exact enlist_of_stamped h
  | updateProfile => exact stampOne_of_stamped _ h
  | confirm => exact confirm_of_stamped h.1 h.2
  | confirmLinked => exact confirmLinked_of_stamped h.1 h.2
  | updateCharacterWish => exact stampExisting_of_stamped _ h
  | updateLinkedCharacterWish e op keys wish =>
    exact stampMany_of_stamped (f := fun row => { row with characterWish := wish }) (fun _ => rfl) h
  | updateCoPlayerWish => exact stampExisting_of_stamped _ h
  | updateLinkedCoPlayerWish e op keys wish =>
    exact stampMany_of_stamped (f := fun row => { row with wishPlay := wish }) (fun _ => rfl) h
  | cancel => exact stampExisting_of_stamped _ h
  | cancelLinked => exact stampMany_of_stamped (f := Registrations.cancelRow) (fun _ => rfl) h
  | _ => exact nomatch hc

end Stamped

/-! ## Every run -/

/-- In every run whose retries find their operation ids, no command changes the registrations after
it has changed them. -/
theorem never_again {bot : Deployment} {otherServices : OtherServices} {s₀ s : Plant}
    (hs : Fleet.Reaches (queue bot otherServices) storage KeepsStamps s₀ s) (hidle : s₀.Idle)
    (hnew : s₀.history = []) : Along NeverAgain s.history := by
  refine (hs.rule (K := fun _ => True) (R := fun _ _ _ => True) (fun _ => True) NeverAgain hidle
    trivial ?_ ?_ ?_ ?_ ?_ ?_ ?_).2.1
  · rw [hnew]
    trivial
  · exact fun _ _ _ => trivial
  · exact fun _ _ _ _ => trivial
  · exact fun _ _ _ => trivial
  · intro s g i command op next h _ hcalls _ _ _
    refine ⟨trivial, ?_, trivial⟩
    cases op with
    | registrations c =>
      exact fun hc happlied => perform_of_carries hc (h _ hcalls.pending hc happlied)
    | _ => trivial
  · exact fun _ _ _ _ _ _ _ _ _ => trivial
  · exact fun _ _ _ _ _ h => h

/-! ## A retry that overwrites -/

instance {t : Registrations} : (c : RegistrationCall) → Decidable (c.Carries t)
  | .enlist e a => inferInstanceAs (Decidable (∃ row ∈ t.rows, row.key = (e, a.participantKey) ∧
      row.lastOperationId = a.operationId))
  | .updateProfile e op key _ | .updateCharacterWish e op key _ | .updateCoPlayerWish e op key _
  | .cancel e op key => inferInstanceAs (Decidable (∀ row ∈ t.rows, row.eventId = e →
      row.participantKey ∈ [key] → row.lastOperationId = op))
  | .updateLinkedCharacterWish e op keys _ | .updateLinkedCoPlayerWish e op keys _
  | .cancelLinked e op keys => inferInstanceAs (Decidable (∀ row ∈ t.rows, row.eventId = e →
      row.participantKey ∈ keys → row.lastOperationId = op))
  | .confirm e op key _ replaced replacedKey => inferInstanceAs (Decidable (
      (∀ row ∈ t.rows, row.eventId = e → row.participantKey ∈ [key] → row.lastOperationId = op) ∧
      ∀ e' ∈ replaced, ∀ key' ∈ replacedKey, ∀ row ∈ t.rows, row.key ≠ (e', key')))
  | .confirmLinked e op keys _ replaced replacedKeys => inferInstanceAs (Decidable (
      (∀ row ∈ t.rows, row.eventId = e → row.participantKey ∈ keys → row.lastOperationId = op) ∧
      ∀ e' ∈ replaced, ∀ row ∈ t.rows, row.eventId = e' → row.participantKey ∈ replacedKeys →
        row.lastOperationId = op))
  | .get _ _ | .listForEvent _ | .findByTelegramProfile _ | .importMissing _ | .updateAnswer _ _ _ _
  | .siftWaitingToEnd _ | .swapQueuePositions _ _ | .remove _ _ | .deleteForEvent _ => .isTrue trivial

instance {command : OrderedRegistrationCommand} {history : Journal} {t : Registrations} :
    (c : Call) → Decidable (command.FindsStamps history t c)
  | .registrations c => inferInstanceAs (Decidable
      (command.Executes c = true → command.applied history = true → c.Carries t))
  | .users _ | .events _ | .listLeaders _ | .participationNotificationDelivered _ _ _
  | .markParticipationNotificationDelivered _ _ _ | .outside _ => .isTrue trivial

instance {s : Plant} : (l : Move) → Decidable (KeepsStamps s l)
  | .call lane _ => inferInstanceAs (Decidable (∀ next ∈ s.pending lane,
      next.1.FindsStamps s.history s.world.registrations next.2))
  | .publish _ | .outside _ | .start _ | .finish _ | .abandon _ => .isTrue trivial

instance {record : Record ports Reply OrderedRegistrationCommand World} {earlier : Journal} :
    Decidable (NeverAgain record earlier) :=
  match record with
  | .called command (.registrations c) before _ after =>
    inferInstanceAs (Decidable (command.Executes c = true → command.applied earlier = true →
      after.registrations = before.registrations))
  | .called _ (.users _) _ _ _ | .called _ (.events _) _ _ _ | .called _ (.listLeaders _) _ _ _
  | .called _ (.participationNotificationDelivered _ _ _) _ _ _
  | .called _ (.markParticipationNotificationDelivered _ _ _) _ _ _
  | .called _ (.outside _) _ _ _ | .finished _ _ => .isTrue trivial

/-- A day on which the table storage is down. -/
def tableOutage (now : Time) : Input
  | .replace _ _ _ => none
  | c => goodDay now c

def wishfulConfirmation (player : Nat) (wish : String) : OrderedRegistrationCommand :=
  { confirmation player with
    payload := .characterWish { characterWish := wish }
    payload_fits := rfl
    group_fits := rfl }

def wishUpdate (player : Nat) (wish : String) : OrderedRegistrationCommand where
  operationId := s!"wish-{player}"
  eventId := "game"
  operation := .updateCharacterWish
  platform := .telegram
  platformUserId := player
  participantKey := some (sampleKey player "game")
  payload := .characterWish { characterWish := wish }
  participant_named := fun _ => sampleKey_ne_empty player "game"

/-- A player signs up and confirms; the confirmation is written, but the tables are down. The player
changes the wish. Then the confirmation is delivered again. -/
def overwritingSchedule : List Move :=
  [.publish (signup 2), .publish (wishfulConfirmation 2 "рыцарь")] ++
  Fleet.attempt "game" 30 (goodDay 0) (.finish "game") ++
  Fleet.attempt "confirmation:telegram:2" 40 (tableOutage 1) (.abandon "confirmation:telegram:2") ++
  .publish (wishUpdate 2 "маг") :: Fleet.attempt "game" 30 (goodDay 2) (.finish "game") ++
  Fleet.attempt "confirmation:telegram:2" 40 (goodDay 3) (.finish "confirmation:telegram:2")

def overwritingPlant : Plant :=
  Fleet.play (queue sampleBot noServices) storage { world := answerWorld } overwritingSchedule

/-- The same confirmation without the change of the wish. -/
def harmlessSchedule : List Move :=
  [.publish (signup 2), .publish (wishfulConfirmation 2 "рыцарь")] ++
  Fleet.attempt "game" 30 (goodDay 0) (.finish "game") ++
  Fleet.attempt "confirmation:telegram:2" 40 (tableOutage 1) (.abandon "confirmation:telegram:2") ++
  Fleet.attempt "confirmation:telegram:2" 40 (goodDay 3) (.finish "confirmation:telegram:2")

def harmlessPlant : Plant :=
  Fleet.play (queue sampleBot noServices) storage { world := answerWorld } harmlessSchedule

theorem harmlessPlant_reached :
    Fleet.Reaches (queue sampleBot noServices) storage KeepsStamps { world := answerWorld }
      harmlessPlant :=
  Fleet.Reaches.refl.play_meets (by decide +kernel)

/-- The second attempt of the confirmation writes nothing. -/
theorem harmless_never_again : Along NeverAgain harmlessPlant.history := by
  have hreached := harmlessPlant_reached
  -- the run has been checked; its value is not needed again
  generalize harmlessPlant = s at hreached ⊢
  exact never_again hreached (fun _ => rfl) rfl

/-- The wish that a player changed after confirming is lost. -/
theorem overwriting_reached : ∃ s₀ s : Plant,
    s₀.Idle ∧ s₀.world.registrations = Table.empty ∧ s₀.history = [] ∧
    Fleet.Reaches (queue sampleBot noServices) storage anySetting.Allows s₀ s ∧
    ¬ Along NeverAgain s.history ∧
    (s.world.registrations.get "game" (sampleKey 2 "game")).map Registration.characterWish =
      some "рыцарь" := by
  refine ⟨{ world := answerWorld }, overwritingPlant, fun _ => rfl, rfl, rfl,
    anySetting_play (by decide +kernel), ?_, ?_⟩
  · decide +kernel
  · decide +kernel

end LarpBot
