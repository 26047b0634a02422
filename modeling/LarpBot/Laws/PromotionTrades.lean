import LarpBot.Laws.ConfirmationSifts

/-!
# Trades of a promotion

An attempt at a promotion either leaves the registrations alone or trades the place of the promoted player
for that of the last waiting player of the main part of the queue, also if a table fails behind the write.
The swap of the two queue times, which is all that changes in the rows (`Trade.rows`), is a trade of the
two places exactly if the times differ and nobody stands between them (`Trade.exact`). Then the promotion is
on record and the player in the main roster, so the next attempt finds that it is made (`Trade.settles`).
-/

namespace LarpBot

open Atomic Act

variable {event : Event} {key : ParticipantKey} {row promoted demoted : Registration} {capacity : Nat}
  {command : OrderedRegistrationCommand} {admits : Input → Prop} {w w' : World} {t : Registrations}

/-- The arguments of the swap that follows a choice. -/
def swapArguments (command : OrderedRegistrationCommand) (promoted demoted : Registration) :
    Registrations.SwapArguments where
  operationId := command.operationId
  promotedParticipantKey := promoted.participantKey
  promotedCreatedAt := queueTime promoted
  demotedParticipantKey := demoted.participantKey
  demotedCreatedAt := queueTime demoted

/-- A write of the worker that swaps the queue times of the two players. -/
structure Trade (command : OrderedRegistrationCommand) (event : Event) (promoted demoted : Registration)
    (capacity : Nat) (w w' : World) : Prop where
  chosen : Chosen event (w.registrations.listForEvent event.eventId) promoted demoted capacity
  rows : ∃ now, w'.registrations.rows =
    w.registrations.rows.map (tradedRow event.eventId (swapArguments command promoted demoted) now)
  exact : Traded event (w.registrations.listForEvent event.eventId) (w'.registrations.listForEvent event.eventId)
      promoted.participantKey demoted.participantKey ↔
    Unambiguous (answerQueue event (w.registrations.listForEvent event.eventId) promoted.answerId) promoted demoted
  leaves : Unambiguous (answerQueue event (w.registrations.listForEvent event.eventId) promoted.answerId)
      promoted demoted →
    demoted.participantKey ∉
      (mainRoster event (w'.registrations.listForEvent event.eventId)).map Registration.participantKey
  settles : Unambiguous (answerQueue event (w.registrations.listForEvent event.eventId) promoted.answerId)
      promoted demoted →
    ∃ stored, w'.events.get event.eventId = some stored ∧
      Replayed command stored (w'.registrations.listForEvent event.eventId) promoted.participantKey

/-- The command has stamped the rows of the choice before, so that the repository swaps nothing. -/
structure Stamped (command : OrderedRegistrationCommand) (event : Event) (rows : List Registration)
    (promoted demoted : Registration) (capacity : Nat) : Prop where
  chosen : Chosen event rows promoted demoted capacity
  promoted_stamped : promoted.lastOperationId = command.operationId
  demoted_stamped : demoted.lastOperationId = command.operationId

/-- An attempt that has made the trade. -/
def Promotes (command : OrderedRegistrationCommand) (event : Event) (key : ParticipantKey) (w w' : World) : Prop :=
  ∃ promoted demoted capacity, promoted.participantKey = key ∧ Trade command event promoted demoted capacity w w'

/-- What an attempt that does not fail has done. -/
def PromotionMade (command : OrderedRegistrationCommand) (event : Event) (key : ParticipantKey) (w w' : World) :
    Prop :=
  Promotes command event key w w' ∨ w'.registrations = w.registrations ∧
    (Replayed command event (w.registrations.listForEvent event.eventId) key ∨
      ∃ promoted demoted capacity, promoted.participantKey = key ∧
        Stamped command event (w.registrations.listForEvent event.eventId) promoted demoted capacity)

/-! ## The two rows -/

theorem mem_listForEvent : row ∈ t.listForEvent event.eventId ↔ row ∈ t.rows ∧ row.eventId = event.eventId :=
  mem_sortBy.trans mem_ofEvent

theorem get_of_mem_listForEvent (h : row ∈ t.listForEvent event.eventId) :
    t.get event.eventId row.participantKey = some row := by
  obtain ⟨hrow, hevent⟩ := mem_listForEvent.mp h
  rw [← hevent]
  exact Table.find?_key hrow

theorem Chosen.mem (h : Chosen event (t.listForEvent event.eventId) promoted demoted capacity) :
    promoted ∈ answerQueue event (t.listForEvent event.eventId) promoted.answerId ∧
      demoted ∈ answerQueue event (t.listForEvent event.eventId) promoted.answerId := by
  obtain ⟨front, back, hhead, -⟩ := h.last
  refine ⟨List.mem_of_mem_drop h.reserve, List.mem_of_mem_take (i := capacity) ?_⟩
  rw [hhead]
  exact List.mem_append_right _ List.mem_cons_self

/-- The chosen rows can be swapped. -/
theorem Chosen.nominated (command : OrderedRegistrationCommand)
    (h : Chosen event (t.listForEvent event.eventId) promoted demoted capacity) :
    Nominated event t (swapArguments command promoted demoted) promoted demoted := by
  obtain ⟨hpromoted, hdemoted⟩ := h.mem
  obtain ⟨hin, hon, -⟩ := mem_activeQueue.mp hpromoted
  obtain ⟨hin', hon', hanswer⟩ := mem_activeQueue.mp hdemoted
  obtain ⟨-, -, -, hwaiting, -⟩ := h.last
  have hanswered (hasked : event.registrationQuestion.isSome) : promoted.answerId.isSome := by
    obtain ⟨question, hquestion⟩ := Option.isSome_iff_exists.mp hasked
    have hoffered := h.offered
    rw [answerCapacity, hquestion] at hoffered
    obtain ⟨option, hfound, -⟩ := Option.map_eq_some_iff.mp hoffered
    rw [← (RegistrationQuestion.mem_of_option hfound).2]
    rfl
  refine ⟨get_of_mem_listForEvent hin, get_of_mem_listForEvent hin', hon, hon', rfl, rfl, fun hkey => ?_,
    hanswered, fun hasked => ?_⟩
  · -- one row would be confirmed and waiting
    have hrow := eq_of_key (keys_listForEvent t event.eventId) hin hin' hkey
    rw [← hrow, h.confirmed] at hwaiting
    cases hwaiting
  · rw [if_pos hasked] at hanswer
    rcases hanswer with hnone | hsame
    · rw [hnone] at hanswered
      cases hanswered hasked
    · exact hsame.symm

@[simp] theorem attendanceStatus_tradedRow (e : EventId) (a : Registrations.SwapArguments) (now : Time)
    (row : Registration) : (tradedRow e a now row).attendanceStatus = row.attendanceStatus := by
  unfold tradedRow
  split
  · rfl
  · split <;> rfl

/-- A swap of the chosen rows, with the entries that were stored before it. -/
theorem Chosen.trade (h : Chosen event (w.registrations.listForEvent event.eventId) promoted demoted capacity)
    (ht : ∀ row ∈ w.registrations.rows, Settled row) {now : Time}
    (hrows : w'.registrations.rows =
      w.registrations.rows.map (tradedRow event.eventId (swapArguments command promoted demoted) now))
    {moves : List String} (hmoves : siftSnapshotEntry .promoted promoted.participantKey ∈ moves)
    {noted stored : Event} (hnotes : Notes command event moves noted)
    (hstored : w'.events.get event.eventId = some stored) (hcore : stored.core = noted.core) :
    Trade command event promoted demoted capacity w w' := by
  have hnominated := h.nominated command
  have hexact := hnominated.traded_iff ht hrows
  refine ⟨h, ⟨now, hrows⟩, hexact, fun hclear => (h.exchanges hnominated (hexact.mpr hclear)).2, fun hclear => ?_⟩
  have henters := (h.exchanges hnominated (hexact.mpr hclear)).1
  have hreplayed : Replayed command noted (w'.registrations.listForEvent event.eventId) promoted.participantKey := by
    refine ⟨hnotes.recorded, hnotes.entries _ hmoves, ?_⟩
    obtain ⟨row, hmain, hkey⟩ := List.mem_map.mp henters
    have hsame : mainRoster noted (w'.registrations.listForEvent event.eventId) =
        mainRoster event (w'.registrations.listForEvent event.eventId) := by
      rw [mainRoster, mainRoster, hnotes.question, hnotes.playerAmount]
    rw [hsame]
    refine ⟨row, hmain, hkey, ?_⟩
    -- the row of the promoted player is the one that was confirmed
    obtain ⟨hrow, hevent⟩ := mem_listForEvent.mp (mem_of_mem_mainRoster hmain).1
    rw [hrows] at hrow
    obtain ⟨u, hu, rfl⟩ := List.mem_map.mp hrow
    rw [eventId_tradedRow] at hevent
    rw [participantKey_tradedRow] at hkey
    have hown := eq_of_key (keys_listForEvent w.registrations event.eventId) (mem_listForEvent.mpr ⟨hu, hevent⟩)
      (mem_activeQueue.mp h.mem.1).1 hkey
    rw [attendanceStatus_tradedRow, hown]
    exact h.confirmed
  exact ⟨stored, hstored, hreplayed.of_core hcore⟩

/-! ## The worker -/

/-- An attempt that gets as far as the choice. -/
theorem does_promoteReserve_trade (bot : Deployment) (ht : ∀ row ∈ w.registrations.rows, Settled row)
    (hevent : w.events.get event.eventId = some event) {place : Nat}
    (hcapacity : answerCapacity event row.answerId = some capacity)
    (hplace : (answerQueue event (w.registrations.listForEvent event.eventId) row.answerId).findIdx?
      (·.participantKey = row.participantKey) = some place)
    (hrow : (answerQueue event (w.registrations.listForEvent event.eventId) row.answerId)[place]? = some row) :
    does admits (fun _ w' => PromotionMade command event row.participantKey w w')
      (fun _ w' => w'.registrations = w.registrations ∨ Promotes command event row.participantKey w w')
      (promoteReserve bot command event
        (answerQueue event (w.registrations.listForEvent event.eventId) row.answerId) capacity
        row.participantKey) w := by
  unfold promoteReserve
  rw [hplace]
  refine does_refuseIf (fun _ => .inl rfl) fun hlate => ?_
  rw [hrow]
  refine does_refuseIf (fun _ => .inl rfl) fun hconfirmed => ?_
  rw [decide_eq_false_iff_not, not_lt] at hlate
  rw [decide_eq_false_iff_not, not_not] at hconfirmed
  cases hdemoted :
    demotedRow (answerQueue event (w.registrations.listForEvent event.eventId) row.answerId) capacity with
  | none => exact .inl rfl
  | some demoted =>
    have hqueue : (answerQueue event (w.registrations.listForEvent event.eventId) row.answerId).Nodup :=
      nodup_activeQueue (keys_listForEvent w.registrations event.eventId).of_map _
    have hchosen : Chosen event (w.registrations.listForEvent event.eventId) row demoted capacity :=
      ⟨hcapacity, (le_place_iff hqueue hrow).mp hlate, hconfirmed, last_of_demotedRow hdemoted⟩
    refine does_seq (does_recordMoves_noted hevent) (fun _ _ h => h.elim) ?_
    rintro _ w₁ ⟨hrows, noted, hnoted, hnotes⟩
    refine does_registrations fun now => ?_
    show does admits _ _ _
      { w₁ with registrations :=
        (w₁.registrations.swapQueuePositions now event.eventId (swapArguments command row demoted)).2 }
    rw [hrows]
    have hnominated := hchosen.nominated command
    by_cases hstamped : row.lastOperationId = command.operationId ∧ demoted.lastOperationId = command.operationId
    · have hsame : (w.registrations.swapQueuePositions now event.eventId (swapArguments command row demoted)).2 =
          w.registrations := by
        unfold Registrations.swapQueuePositions
        rw [hnominated.promoted_stored, hnominated.demoted_stored]
        exact congrArg Prod.snd (if_pos hstamped)
      rw [hsame]
      refine does_seq (does_upkeep (upkeep_refresh bot event)) (fun _ _ h => .inl h.1) fun _ w₂ h => ?_
      exact .inr ⟨h.1, .inr ⟨row, demoted, capacity, rfl, hchosen, hstamped.1, hstamped.2⟩⟩
    · have hswap : (w.registrations.swapQueuePositions now event.eventId (swapArguments command row demoted)).2.rows =
          w.registrations.rows.map (tradedRow event.eventId (swapArguments command row demoted) now) :=
        (hnominated.swap_eq hstamped).2
      have hpromotes {w₂ : World} (h : w₂.registrations =
            (w.registrations.swapQueuePositions now event.eventId (swapArguments command row demoted)).2 ∧
          w₂.events.rows.map Event.core = w₁.events.rows.map Event.core) :
          Promotes command event row.participantKey w w₂ := by
        have hcores := Events.core_get h.2 event.eventId
        rw [hnoted, Option.map_some] at hcores
        obtain ⟨stored, hstored, hcore⟩ := Option.map_eq_some_iff.mp hcores
        have htraded : w₂.registrations.rows =
            w.registrations.rows.map (tradedRow event.eventId (swapArguments command row demoted) now) := by
          rw [h.1]
          exact hswap
        exact ⟨row, demoted, capacity, rfl, hchosen.trade ht htraded List.mem_cons_self hnotes hstored hcore⟩
      refine does_seq (does_upkeep (upkeep_refresh bot event)) (fun _ _ h => .inr (hpromotes h)) fun _ w₂ h => ?_
      exact .inl (hpromotes h)

/-- The queue that the worker looks at. -/
theorem workerQueue_eq (answerId : Option String) :
    (if event.registrationQuestion.isSome = true then
        activeQueue (activeQueue (t.listForEvent event.eventId)) answerId
      else activeQueue (t.listForEvent event.eventId)) =
      answerQueue event (t.listForEvent event.eventId) answerId := by
  unfold answerQueue
  split
  · exact activeQueue_active (keys_listForEvent t event.eventId) (perm_activeQueue _) _
  · rfl

theorem find?_activeQueue : (activeQueue (t.listForEvent event.eventId)).find? (·.participantKey = key) = some row ↔
    row ∈ t.listForEvent event.eventId ∧ isActive row ∧ row.participantKey = key :=
  find?_active (keys_listForEvent t event.eventId) fun u => by
    rw [mem_activeQueue]
    simp

/-- One attempt at a promotion. -/
theorem does_promotion (bot : Deployment) (ht : ∀ row ∈ w.registrations.rows, Settled row)
    (hkey : command.participantKey = some key) (hevent : w.events.get event.eventId = some event) :
    does admits (fun _ w' => PromotionMade command event key w w')
      (fun _ w' => w'.registrations = w.registrations ∨ Promotes command event key w w')
      (promoteReserveParticipant bot command event) w := by
  have hkeys := keys_listForEvent w.registrations event.eventId
  unfold promoteReserveParticipant
  rw [hkey]
  refine does_listForEvent ?_
  cases hfind : (activeQueue (w.registrations.listForEvent event.eventId)).find? (·.participantKey = key) with
  | none => exact .inl rfl
  | some selected =>
    obtain ⟨hrow, hon, rfl⟩ := find?_activeQueue.mp hfind
    dsimp only
    cases hcapacity : answerCapacity event selected.answerId with
    | none => exact .inl rfl
    | some capacity =>
      dsimp only
      rw [workerQueue_eq]
      split
      · next hagain =>
        rw [Bool.and_eq_true, decide_eq_true_eq, decide_eq_true_eq,
          mem_currentSiftEntries_iff hkeys hrow hon rfl] at hagain
        refine does_seq (does_upkeep (upkeep_refresh bot event)) (fun _ _ h => .inl h.1) fun _ w₁ h => ?_
        exact .inr ⟨h.1, .inl ⟨hagain.1, hagain.2.1, hagain.2.2⟩⟩
      · have hsub : ∀ u ∈ answerQueue event (w.registrations.listForEvent event.eventId) selected.answerId,
            u ∈ w.registrations.listForEvent event.eventId := fun u hu => (mem_activeQueue.mp hu).1
        obtain ⟨place, hplace, hat⟩ := findIdx?_of_mem hkeys hsub (mem_answerQueue.mpr ⟨hrow, hon⟩) rfl
        exact does_promoteReserve_trade bot ht hevent hcapacity hplace hat

/-- A promotion that is on record is not made again. -/
theorem does_promotion_again (bot : Deployment) (hkey : command.participantKey = some key)
    (hreplayed : Replayed command event (w.registrations.listForEvent event.eventId) key) :
    does admits (fun _ w' => w'.registrations = w.registrations) (fun _ w' => w'.registrations = w.registrations)
      (promoteReserveParticipant bot command event) w := by
  have hkeys := keys_listForEvent w.registrations event.eventId
  obtain ⟨main, hmain, hmainKey, -⟩ := hreplayed.current
  obtain ⟨hrow, hon⟩ := mem_of_mem_mainRoster hmain
  obtain ⟨capacity, hcapacity, -⟩ := mem_mainRoster_own.mp hmain
  have hentry := (mem_currentSiftEntries_iff hkeys hrow hon hmainKey event.participantRemovalKeys).mpr
    ⟨hreplayed.entry, hreplayed.current⟩
  unfold promoteReserveParticipant
  rw [hkey]
  refine does_listForEvent ?_
  rw [find?_activeQueue.mpr ⟨hrow, hon, hmainKey⟩]
  dsimp only
  rw [hcapacity]
  dsimp only
  rw [workerQueue_eq, decide_eq_true hreplayed.recorded, decide_eq_true hentry, Bool.and_true, if_pos rfl]
  exact does_seq (does_upkeep (upkeep_refresh bot event)) (fun _ _ h => h.1) fun _ _ h => h.1

/-! ## In a run -/

section Runs

variable {setting : Setting} {otherServices : OtherServices} {s₀ s : Plant}

/-- In every state that a run reaches and whatever the integrations answer, an attempt at a promotion that
nothing interrupts swaps the queue times of two rows or leaves the registrations alone. The two are the
promoted player of the reserve and the last waiting player of the main part, and exactly these two trade
places if and only if their times differ and no third row has one of the times and a key between theirs.
Then the promotion is on record, and while the player stands in the main roster no attempt at the command
moves anybody. An attempt that returns without a swap has found the promotion on record or its own stamp on
both rows. -/
theorem promotion_trades (bot : Deployment)
    (hs : Fleet.Reaches (queue bot otherServices) storage setting.Allows s₀ s) (hosts : setting.Hosts otherServices)
    (hidle : s₀.Idle) (hempty : s₀.world.registrations = Table.empty)
    (hkey : command.participantKey = some key) (hevent : s.world.events.get event.eventId = some event) :
    does (fun _ => True) (fun _ w' => PromotionMade command event key s.world w')
      (fun _ w' => w'.registrations = s.world.registrations ∨ Promotes command event key s.world w')
      (promoteReserveParticipant bot command event) s.world ∧
    (Replayed command event (s.world.registrations.listForEvent event.eventId) key →
      does (fun _ => True) (fun _ w' => w'.registrations = s.world.registrations)
        (fun _ w' => w'.registrations = s.world.registrations)
          (promoteReserveParticipant bot command event) s.world) :=
  ⟨does_promotion bot (settled_reached hs hosts hidle hempty) hkey hevent, does_promotion_again bot hkey⟩

end Runs

theorem promotion_fits : payloadFits .promoteReserveParticipant .empty = true := rfl

def promoting : OrderedRegistrationCommand where
  operationId := "promotion"
  eventId := "game"
  operation := .promoteReserveParticipant
  platform := .telegram
  platformUserId := 1
  participantKey := some (sampleKey 3 "game")
  payload_fits := promotion_fits
  participant_named := fun _ => sampleKey_ne_empty 3 "game"

theorem siftPlant_promotion : ∃ event, siftPlant.world.events.get event.eventId = some event ∧
    does (fun _ => True)
      (fun _ w' => PromotionMade promoting event (sampleKey 3 "game") siftPlant.world w')
      (fun _ w' => w'.registrations = siftPlant.world.registrations ∨
        Promotes promoting event (sampleKey 3 "game") siftPlant.world w')
      (promoteReserveParticipant sampleBot promoting event) siftPlant.world := by
  have hstored : (siftPlant.world.events.get "game").isSome := by decide +kernel
  have hreached := siftPlant_reached
  generalize siftPlant = s at hstored hreached ⊢
  obtain ⟨event, hevent⟩ := Option.isSome_iff_exists.mp hstored
  have hid : event.eventId = "game" := Events.eventId_of_get hevent
  have hstored : s.world.events.get event.eventId = some event := hid ▸ hevent
  exact ⟨event, hstored, (promotion_trades sampleBot hreached anySetting_hosts (fun _ => rfl) rfl rfl hstored).1⟩

/-- The third player takes the place of the second. -/
example : ((siftPlant.world.events.get "game").map fun event =>
    let w' := ((promoteReserveParticipant sampleBot promoting event).run storage fairDay siftPlant.world).2.2
    (activeQueue (w'.registrations.listForEvent "game")).map Registration.participantKey) =
      some [sampleKey 1 "game", sampleKey 3 "game", sampleKey 2 "game"] := by
  decide +kernel

end LarpBot
