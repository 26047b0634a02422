import LarpBot.Laws.Closings

/-!
# A game that is reopened after its automatic close

Unarchiving a game resets `archivedAt` and nothing else. The schedule of the close and the mark that
it was started stay, whatever is done to the game: the schedule of a close that has been started is
never moved, cleared or replaced. So a game that has closed by itself and is then unarchived cannot
be given another close, its old one cannot be cleared, and its date cannot be set to a day on which
the old close has passed (`reopened_game_keeps_close`).
-/

namespace LarpBot

open Atomic Act
open Prog (Traced)

variable {bot : Deployment} {tables : OtherServices} {command : OrderedRegistrationCommand}
  {made : List ports.Entry} {c : Call}

/-! ## What completes a close -/

/-- The calls that complete no close. -/
def Call.CompletesNone (c : Call) : Prop :=
  match c with
  | .events (.completeScheduledCloseActions _ _)
  | .events (.completeScheduledCloseNotifications _ _) => False
  | _ => True

/-- A close is completed by an attempt that has read the game with a schedule and a close under
way. -/
def Scheduled (command : OrderedRegistrationCommand) (made : List ports.Entry) (c : Call) : Prop :=
  match c with
  | .events (.completeScheduledCloseActions eventId _)
  | .events (.completeScheduledCloseNotifications eventId _) =>
    eventId = command.eventId ∧ ∃ event, readsGame command event ∈ made ∧
      event.scheduledCloseAt.isSome ∧ event.scheduledCloseOperationId.isSome
  | _ => True

/-- A program whose calls complete no close that has no schedule. -/
abbrev scheduled {α : Type} (command : OrderedRegistrationCommand)
    (Q : List ports.Entry → α → Prop) (p : Act α) (made : List ports.Entry) : Prop :=
  p.Traced (Plausible (anyWorkbook : Legal)) (Scheduled command) (fun _ _ => True) Q made

theorem Call.CompletesNone.scheduled (hc : c.CompletesNone) : Scheduled command made c := by
  cases c with
  | events c => cases c <;> trivial
  | _ => trivial

theorem Call.SparesClosings.completesNone (hc : c.SparesClosings) : c.CompletesNone := by
  cases c with
  | events c => cases c <;> trivial
  | _ => trivial

theorem Call.IsNotice.completesNone {operationId : OperationId}
    (hc : c.IsNotice anyWorkbook operationId) : c.CompletesNone := by
  cases c with
  | events c => cases c <;> trivial
  | _ => trivial

section Stages

variable {α : Type} {Q : α → Prop} {p : Act α}

/-- What completes no close keeps the calls that were made before it. -/
theorem scheduled_of_makes (hp : makes anyWorkbook Call.CompletesNone Q p) :
    scheduled command (fun made' a => made <:+ made' ∧ Q a) p made :=
  (hp.traced made).mono (fun _ _ hc => hc.2.scheduled) (fun _ _ _ => trivial) fun _ _ h => h

theorem scheduled_of_spares (hp : spares Q p) :
    scheduled command (fun made' a => made <:+ made' ∧ Q a) p made :=
  scheduled_of_makes (makes_mono hp fun _ => Call.SparesClosings.completesNone)

theorem completesNone_notifyClosed (event : Event) (operationId : OperationId)
    (leaders : List BotIdentity) (notified : List String) :
    makes anyWorkbook Call.CompletesNone (fun _ => True)
      (notifyClosed event operationId notified leaders) := by
  induction leaders generalizing notified with
  | nil => trivial
  | cons leader rest ih =>
    unfold notifyClosed
    dsimp only
    split
    · exact ih notified
    · have hdeliver : makes anyWorkbook (Call.IsNotice anyWorkbook operationId) (fun _ => True)
          (deliver leader.platform leader.platformUserId
            s!"{operationId}:{closingRecipient leader}" (closingText event) [mainMenuButton]) :=
        notice_deliver _ _ _ _ _
      refine (makes_mono hdeliver fun _ => Call.IsNotice.completesNone).bind fun _ _ => ?_
      exact makes_call trivial fun _ _ => (makes_value _).bind fun _ _ => ih _

theorem scheduled_finalizeClosing :
    scheduled command (fun _ _ => True) (finalizeClosing bot command) [] := by
  have hread : scheduled command (fun made closing =>
      ReadClosing bot command made closing.1 closing.2) (closingEvent bot command) [] :=
    traced_closingEvent trivial
  refine hread.bind fun made closing hclosing => ?_
  obtain ⟨event, operationId⟩ := closing
  obtain ⟨rfl, hid, ⟨closesAt, hcloses, -⟩, -⟩ := hclosing
  dsimp only at hid hcloses ⊢
  split
  · trivial
  · split
    · trivial
    · next hstarted =>
      have hstarted : event.scheduledCloseOperationId = some operationId := not_not.mp hstarted
      -- the read that came first is the ground of both calls
      have hground {made' : List ports.Entry} (hmade : [readsGame command event] <:+ made') :
          ∃ event, readsGame command event ∈ made' ∧ event.scheduledCloseAt.isSome ∧
            event.scheduledCloseOperationId.isSome :=
        ⟨event, hmade.subset List.mem_cons_self, by rw [hcloses]; rfl, by rw [hstarted]; rfl⟩
      refine ⟨⟨hid, hground (List.suffix_refl _)⟩, fun completed _ => ?_⟩
      cases completed with
      | false => trivial
      | true =>
        refine ⟨trivial, fun answer hanswer => ?_⟩
        cases answer with
        | none => trivial
        | some refreshed =>
          have hsame : refreshed.eventId = command.eventId := (hanswer refreshed rfl).1.trans hid
          refine (scheduled_of_spares
            (spares_of_quiet (quiet_refreshDailyPassTable bot _))).bind fun made₁ _ h₁ => ?_
          refine ⟨trivial, fun leaders _ => ?_⟩
          refine (scheduled_of_makes
            (completesNone_notifyClosed refreshed operationId leaders _)).bind fun made₂ _ h₂ => ?_
          have hmade : [readsGame command event] <:+ made₂ :=
            (List.suffix_cons _ _).trans ((List.suffix_cons _ _).trans
              (h₁.1.trans ((List.suffix_cons _ _).trans h₂.1)))
          refine ⟨⟨hsame, hground hmade⟩, fun answer _ => ?_⟩
          cases answer <;> trivial

/-- No attempt completes a close without a schedule. -/
theorem scheduled_process (htables : ∀ command, spares (fun _ => True) (tables command)) :
    scheduled command (fun _ _ => True) (process bot (services bot tables) command) [] := by
  by_cases hop : command.operation = .scheduledCloseFinalize
  · refine traced_process bot (fun _ _ h => h) ?_
      fun _ _ hc => hc.completesNone.scheduled
    unfold mutate
    rw [hop]
    refine Traced.bind (Q := fun _ _ => True) ?_ fun _ _ _ => trivial
    unfold services
    rw [hop]
    exact scheduled_finalizeClosing.bind fun _ _ _ => trivial
  · -- the other stages have no part in the end of a close
    refine (grounded_process htables).mono (fun made c hc => ?_) (fun _ _ h => h) fun _ _ h => h
    cases c with
    | events c => cases c <;> first | trivial | exact absurd hc.1 hop
    | _ => trivial

end Stages

/-! ## What is kept of a close -/

/-- A completed close was started, under a schedule. -/
def Event.ClosedOnSchedule (event : Event) : Prop :=
  event.scheduledCloseCompletedAt.isSome →
    event.scheduledCloseOperationId.isSome ∧ event.scheduledCloseAt.isSome

/-- Once its close is started, a game keeps the schedule of the close and the mark of the start. -/
def KeepsClose (event event' : Event) : Prop :=
  event.scheduledCloseOperationId.isSome →
    event'.scheduledCloseOperationId.isSome ∧ event'.scheduledCloseAt = event.scheduledCloseAt

theorem KeepsClose.refl (event : Event) : KeepsClose event event :=
  fun hstarted => ⟨hstarted, rfl⟩

theorem KeepsClose.trans {event event' event'' : Event} (h : KeepsClose event event')
    (h' : KeepsClose event' event'') : KeepsClose event event'' := by
  intro hstarted
  obtain ⟨hstarted', hschedule⟩ := h hstarted
  obtain ⟨hstarted'', hschedule'⟩ := h' hstarted'
  exact ⟨hstarted'', hschedule'.trans hschedule⟩

theorem ClosingChange.keepsClose {event event' : Event} (h : ClosingChange c event event')
    (hschedule : event'.scheduledCloseAt = event.scheduledCloseAt) : KeepsClose event event' := by
  intro hstarted
  refine ⟨?_, hschedule⟩
  cases h with
  | none hoperation => rwa [hoperation]
  | archive _ _ _ hoperation => rwa [hoperation]
  | start _ _ _ _ hoperation => rw [hoperation]; rfl
  | finish _ _ _ hoperation => rw [hoperation]; rfl

/-- Some call has left the game like this. -/
def Met (history : Trail) (event : Event) : Prop :=
  ∃ (command : OrderedRegistrationCommand) (c : Call) (before : World) (answer : c.Ans)
    (after : World), Record.called (S := ports) command c before answer after ∈ history ∧
      after.events.get event.eventId = some event

/-- The closes that the history has seen started are still there. -/
structure Persistent (history : Trail) (w : World) : Prop where
  closed : ∀ event ∈ w.events.rows, event.ClosedOnSchedule
  met : ∀ found, Met history found → found.ClosedOnSchedule ∧
    ∀ event ∈ w.events.rows, event.eventId = found.eventId → KeepsClose found event
  reads : ∀ command eventId before found after,
    .called (S := ports) command (.events (.get eventId)) before (some found) after ∈ history →
      after.events.get eventId = some found

namespace Persistent

variable {history : Trail} {w w' : World} {i : Input} {jobs : Jobs ports Failure Reply
  OrderedRegistrationCommand String}

/-- A completed close after a call was completed before, or by an attempt that has read its
schedule. -/
theorem closed_perform (h : Persistent history w) (hmade : Made jobs command history made)
    (hground : Scheduled command made c) :
    ∀ event' ∈ (c.perform i w).2.events.rows, event'.ClosedOnSchedule := by
  intro event' hevent' hcompleted
  obtain ⟨event, hevent, hid, hschedule, hchange⟩ := closing_perform hevent'
  cases hchange with
  | none hoperation hsame =>
    rw [hoperation, hschedule]
    exact h.closed event hevent (hsame ▸ hcompleted)
  | archive _ _ _ hoperation hsame =>
    rw [hoperation, hschedule]
    exact h.closed event hevent (hsame ▸ hcompleted)
  | start _ _ _ _ hoperation hsame =>
    rw [hoperation, hschedule]
    exact ⟨rfl, (h.closed event hevent (hsame ▸ hcompleted)).2⟩
  | finish operationId hc hstarted hoperation =>
    have hread : event.eventId = command.eventId ∧ ∃ found, readsGame command found ∈ made ∧
        found.scheduledCloseAt.isSome ∧ found.scheduledCloseOperationId.isSome := by
      rcases hc with rfl | rfl <;> exact hground
    obtain ⟨hsame, found, hfound, hscheduled, hfoundStarted⟩ := hread
    obtain ⟨before, after, hrecord⟩ := hmade.mem hfound
    have hafter := h.reads command command.eventId before found after hrecord
    have hfoundId := Events.eventId_of_get hafter
    have hmet : Met history found :=
      ⟨command, .events (.get command.eventId), before, some found, after, hrecord,
        by rw [hfoundId]; exact hafter⟩
    obtain ⟨-, hkept⟩ := (h.met found hmet).2 event hevent (hsame.trans hfoundId.symm) hfoundStarted
    rw [hoperation, hschedule, hkept]
    exact ⟨rfl, hscheduled⟩

theorem called (h : Persistent history w) (hmade : Made jobs command history made)
    (hground : Scheduled command made c) :
    Persistent (.called (S := ports) command c w (c.perform i w).1 (c.perform i w).2 :: history)
      (c.perform i w).2 := by
  have hclosed := h.closed_perform (i := i) hmade hground
  refine ⟨hclosed, ?_, ?_⟩
  · rintro found ⟨command', c', before, answer, after, hrecord, hfound⟩
    rcases List.mem_cons.mp hrecord with hnew | hold
    · -- the game as this call has left it
      obtain ⟨-, -, -, -, rfl⟩ := Record.called.inj hnew
      have hmem := Table.mem_of_find? hfound
      refine ⟨hclosed found hmem, ?_⟩
      intro event hevent hid
      rw [Table.eq_of_key_eq hevent hmem hid]
      exact .refl found
    · obtain ⟨hfoundClosed, hkept⟩ :=
        h.met found ⟨command', c', before, answer, after, hold, hfound⟩
      refine ⟨hfoundClosed, ?_⟩
      intro event' hevent' hid'
      obtain ⟨event, hevent, hid, hschedule, hchange⟩ := closing_perform hevent'
      exact (hkept event hevent (hid.trans hid')).trans (hchange.keepsClose hschedule)
  · intro command' eventId before found after hrecord
    rcases List.mem_cons.mp hrecord with hnew | hold
    · obtain ⟨-, rfl, -, hanswer, rfl⟩ := Record.called.inj hnew
      have hsame : some found = w.events.get eventId := eq_of_heq hanswer
      exact hsame.symm
    · exact h.reads command' eventId before found after hold

theorem around (h : Persistent history w) (haround : AroundClosings history w w') :
    Persistent history w' := by
  cases haround with
  | rest _ hevents =>
    refine ⟨?_, ?_, h.reads⟩
    · intro event' hevent' hcompleted
      rcases hevents event' hevent' with ⟨event, hevent, hsame⟩ | hnew
      · rw [hsame.operation, hsame.schedule]
        exact h.closed event hevent (hsame.completed ▸ hcompleted)
      · rw [hnew.completed] at hcompleted
        exact nomatch hcompleted
    · intro found hmet
      obtain ⟨hfoundClosed, hkept⟩ := h.met found hmet
      refine ⟨hfoundClosed, ?_⟩
      intro event' hevent' hid'
      rcases hevents event' hevent' with ⟨event, hevent, hsame⟩ | hnew
      · refine (hkept event hevent (hsame.id.trans hid')).trans fun hstarted => ?_
        exact ⟨by rwa [hsame.operation], hsame.schedule⟩
      · obtain ⟨command, c, before, answer, after, hrecord, hfound⟩ := hmet
        rw [← hid', hnew.unmet command c before answer after hrecord] at hfound
        exact nomatch hfound
  | reschedule eventId closesAt now _ hevents =>
    -- only the schedule of a close that was not started is moved
    have hmoved : ∀ event' ∈ w'.events.rows, event' ∈ w.events.rows ∨
        ∃ event ∈ w.events.rows, event.eventId = event'.eventId ∧
          event.scheduledCloseOperationId = none ∧ event'.scheduledCloseCompletedAt = none := by
      intro event' hevent'
      rw [hevents] at hevent'
      rcases EventCall.amended_when hevent' with hold | ⟨event, hevent, -, htest, rfl⟩
      · exact .inl hold
      · simp only [Bool.and_eq_true, Option.isNone_iff_eq_none] at htest
        exact .inr ⟨event, hevent, rfl, htest.1, rfl⟩
    refine ⟨?_, ?_, h.reads⟩
    · intro event' hevent' hcompleted
      rcases hmoved event' hevent' with hold | ⟨event, hevent, hid, -, hnone⟩
      · exact h.closed event' hold hcompleted
      · rw [hnone] at hcompleted
        exact nomatch hcompleted
    · intro found hmet
      obtain ⟨hfoundClosed, hkept⟩ := h.met found hmet
      refine ⟨hfoundClosed, ?_⟩
      intro event' hevent' hid' hstarted
      rcases hmoved event' hevent' with hold | ⟨event, hevent, hid, hnone, -⟩
      · exact hkept event' hold hid' hstarted
      · have hbefore := (hkept event hevent (hid.trans hid') hstarted).1
        rw [hnone] at hbefore
        exact nomatch hbefore

theorem finished {value : Reply} (h : Persistent history w) :
    Persistent (.finished command value :: history) w := by
  refine ⟨h.closed, ?_, ?_⟩
  · rintro found ⟨command', c', before, answer, after, hrecord, hfound⟩
    rcases List.mem_cons.mp hrecord with hnew | hold
    · exact nomatch hnew
    · exact h.met found ⟨command', c', before, answer, after, hold, hfound⟩
  · intro command' eventId before found after hrecord
    rcases List.mem_cons.mp hrecord with hnew | hold
    · exact nomatch hnew
    · exact h.reads command' eventId before found after hold

end Persistent

/-! ## Runs -/

/-- Any step: what the rest of the bot does to the closes is what the gateway does. -/
def GatewayStep (s : Plant) : Move → Prop
  | .outside world => AroundClosings s.history s.world world
  | _ => True

/-- The game was closed by itself to the end, and then unarchived. -/
def Reopened (history : Trail) (eventId : EventId) : Prop :=
  ∃ (command : OrderedRegistrationCommand) (updatedAt : Time) (before after : World) (event : Event),
    .called (S := ports) command (.events (.unarchive eventId updatedAt)) before true after ∈
      history ∧
    after.events.get eventId = some event ∧ event.scheduledCloseCompletedAt.isSome

variable {s₀ s : Plant} {eventId : EventId} {event : Event}

theorem persistent_reached
    (hs : Fleet.Reaches (queue bot (services bot tables)) storage GatewayStep s₀ s)
    (htables : ∀ command, spares (fun _ => True) (tables command)) (hidle : s₀.Idle)
    (hnew : s₀.history = []) (hunstarted : Unstarted s₀.world) :
    Persistent s.history s.world := by
  refine (hs.trace_rule (A := Plausible (anyWorkbook : Legal)) (T := Scheduled)
    (X := fun _ _ _ => True) (Q := fun _ _ _ => True) (K := fun _ _ => True) Persistent hidle
    ?_ ?_ ?_ ?_ ?_ ?_ ?_ ?_).1
  · rw [hnew]
    refine ⟨?_, ?_, ?_⟩
    · intro event hevent hcompleted
      rw [hunstarted.completed event hevent] at hcompleted
      exact nomatch hcompleted
    · rintro found ⟨command, c, before, answer, after, hrecord, -⟩
      exact absurd hrecord List.not_mem_nil
    · intro command eventId before found after hrecord
      exact absurd hrecord List.not_mem_nil
  · exact fun command => scheduled_process htables
  · exact fun _ _ _ _ => trivial
  · exact fun _ _ _ _ => trivial
  · exact fun s w hC hinv => hinv.around hC
  · exact fun s lane i c _ _ => plausible_perform (respects_anyWorkbook i) fun _ _ => trivial
  · exact fun s lane i command c made _ _ _ hmade hground hinv => hinv.called hmade hground
  · exact fun s lane command value made _ _ _ _ _ hinv => hinv.finished

/-- While the schedule of the close stands, the game is not moved to a day on which it has passed. -/
theorem details_refused {admits : Input → Prop} {w : World} {closedAt : Time}
    {payload : EventDetailsPayload} (hevent : w.events.get command.eventId = some event)
    (hclosed : event.scheduledCloseAt = some closedAt)
    (hop : command.operation = .updateEventDetails)
    (hpayload : command.payload = .eventDetails payload)
    (hdate : closesBy closedAt payload.gameDate) :
    does admits (fun _ _ => False) (fun _ w' => w' = w) (apply bot command) w := by
  refine does_getEvent ?_
  rw [hevent]
  simp only [applyToEvent, applyToArchived, applyToActive, hop, hpayload]
  split
  · rfl
  · refine does_seq (does_reads (makes_whenever (reads_requireEventLeader command)))
      (fun _ _ h => h) ?_
    rintro _ _ ⟨rfl, -⟩
    refine does_refuseIf (fun _ => rfl) fun hallowed => ?_
    rw [hclosed, Option.any_some, hdate] at hallowed
    exact nomatch hallowed

/-- After its automatic close, an unarchived game keeps the old one: no schedule is set in its place,
it is not cleared, and no command moves the game to a day on which it has passed. -/
theorem reopened_game_keeps_close
    (hs : Fleet.Reaches (queue bot (services bot tables)) storage GatewayStep s₀ s)
    (htables : ∀ command, spares (fun _ => True) (tables command)) (hidle : s₀.Idle)
    (hnew : s₀.history = []) (hunstarted : Unstarted s₀.world)
    (hreopened : Reopened s.history eventId) (hevent : s.world.events.get eventId = some event) :
    (∀ now closesAt, s.world.events.setScheduledCloseAt now eventId closesAt =
      (false, s.world.events)) ∧
    ∃ closedAt, event.scheduledCloseAt = some closedAt ∧
      ∀ (command : OrderedRegistrationCommand) (payload : EventDetailsPayload)
        (inputs : Nat → Input), command.eventId = eventId →
        command.operation = .updateEventDetails → command.payload = .eventDetails payload →
        closesBy closedAt payload.gameDate →
          (∀ result, ((apply bot command).run storage inputs s.world).1 ≠ .ok result) ∧
            ((apply bot command).run storage inputs s.world).2.2 = s.world := by
  have hpersistent := persistent_reached hs htables hidle hnew hunstarted
  obtain ⟨command, updatedAt, before, after, found, hrecord, hfound, hcompleted⟩ := hreopened
  have hfoundId := Events.eventId_of_get hfound
  have hmet : Met s.history found := ⟨command, .events (.unarchive eventId updatedAt), before, true,
    after, hrecord, by rw [hfoundId]; exact hfound⟩
  obtain ⟨hclosed, hkept⟩ := hpersistent.met found hmet
  obtain ⟨hfoundStarted, hscheduled⟩ := hclosed hcompleted
  obtain ⟨hstarted, hschedule⟩ := hkept event (Table.mem_of_find? hevent)
    ((Events.eventId_of_get hevent).trans hfoundId.symm) hfoundStarted
  constructor
  · intro now closesAt
    rw [Events.setScheduledCloseAt, Events.when, hevent]
    simp [Option.isNone_eq_false_iff.mpr hstarted]
  · obtain ⟨closedAt, hclosedAt⟩ := Option.isSome_iff_exists.mp hscheduled
    rw [hclosedAt] at hschedule
    refine ⟨closedAt, hschedule, ?_⟩
    rintro command payload inputs rfl hop hpayload hdate
    have hrefused : does (fun _ => True) (fun _ _ => False) (fun _ w' => w' = s.world)
        (apply bot command) s.world :=
      details_refused hevent hschedule hop hpayload hdate
    obtain ⟨hok, herror⟩ := run_of_does hrefused (s := inputs) fun _ => trivial
    refine ⟨fun result hresult => hok result hresult, ?_⟩
    cases hr : ((apply bot command).run storage inputs s.world).1 with
    | ok result => exact (hok result hr).elim
    | error e => exact herror e hr

/-! ## A game that closes by itself and is unarchived -/

section Samples

def sampleUnarchive : OrderedRegistrationCommand where
  operationId := "unarchive"
  eventId := "game"
  operation := .unarchiveEvent
  platform := .telegram
  platformUserId := 1

/-- The game is put off to a day long after its close. -/
def sampleDetails : OrderedRegistrationCommand where
  operationId := "details"
  eventId := "game"
  operation := .updateEventDetails
  platform := .telegram
  platformUserId := 1
  payload := .eventDetails ⟨"Игра", ⟨2030, 1, 1⟩⟩

/-- A good day on which the master is an admin. -/
def adminDay (now : Time) : Input
  | .isAdmin _ _ => some true
  | c => goodDay now c

def unarchiveMoves : List Move :=
  .publish sampleUnarchive :: Fleet.attempt sampleUnarchive.queueGroupId 40 (adminDay 5)
    (.finish sampleUnarchive.queueGroupId)

def reopenedPlant : Plant :=
  completedPlant.play closingQueue storage unarchiveMoves

theorem gatewayStep_of_own {s : Plant} {l : Move} (h : isOwnMove l = true) : GatewayStep s l := by
  cases l with
  | outside world => exact nomatch h
  | _ => trivial

theorem reopenedPlant_reached :
    Fleet.Reaches closingQueue storage GatewayStep closingPlant reopenedPlant := by
  have hclosed : Fleet.Reaches closingQueue storage GatewayStep closingPlant completedPlant := by
    have hcheck : (stageMoves (sampleStage .close) 1 ++ stageMoves (sampleStage .statistics) 2 ++
        stageMoves (sampleStage .finalize) 3).all isOwnMove = true := by
      decide +kernel
    exact Fleet.Reaches.refl.play fun s l hl => gatewayStep_of_own (List.all_eq_true.mp hcheck l hl)
  have hcheck : unarchiveMoves.all isOwnMove = true := by decide +kernel
  exact hclosed.play fun s l hl => gatewayStep_of_own (List.all_eq_true.mp hcheck l hl)

/-- A record of an unarchiving that found the close completed. -/
def reopensGame : Record ports Reply OrderedRegistrationCommand World → Bool
  | .called _ (.events (.unarchive eventId _)) _ true after => eventId = "game" &&
    (after.events.get "game").any (·.scheduledCloseCompletedAt.isSome)
  | _ => false

theorem reopened_of_check {history : Trail} (h : history.any reopensGame = true) :
    Reopened history "game" := by
  obtain ⟨record, hrecord, hreopens⟩ := List.any_eq_true.mp h
  unfold reopensGame at hreopens
  split at hreopens
  · next command eventId updatedAt before after =>
    simp only [Bool.and_eq_true, decide_eq_true_eq, Option.any_eq_true] at hreopens
    obtain ⟨rfl, event, hevent, hcompleted⟩ := hreopens
    exact ⟨command, updatedAt, before, after, event, hrecord, hevent, hcompleted⟩
  · exact nomatch hreopens

theorem reopenedPlant_reopened : Reopened reopenedPlant.history "game" := by
  have hcheck : reopenedPlant.history.any reopensGame = true := by decide +kernel
  exact reopened_of_check hcheck

theorem reopenedPlant_keeps_close : ∃ event closedAt,
    reopenedPlant.world.events.get "game" = some event ∧ event.scheduledCloseAt = some closedAt ∧
      (∀ now closesAt, reopenedPlant.world.events.setScheduledCloseAt now "game" closesAt =
        (false, reopenedPlant.world.events)) := by
  have hstored : (reopenedPlant.world.events.get "game").isSome := by decide +kernel
  have hreached := reopenedPlant_reached
  have hreopened := reopenedPlant_reopened
  generalize reopenedPlant = s at hstored hreached hreopened ⊢
  obtain ⟨event, hevent⟩ := Option.isSome_iff_exists.mp hstored
  obtain ⟨hkept, closedAt, hclosedAt, -⟩ := reopened_game_keeps_close hreached (fun _ => trivial)
    (fun _ => rfl) rfl closingWorld_unstarted hreopened hevent
  exact ⟨event, closedAt, hevent, hclosedAt, hkept⟩

/-- The game is open again, and neither a new close nor a new date is taken. -/
theorem reopenedPlant_unusable : ∃ (s₀ s : Plant) (event : Event),
    Fleet.Reaches closingQueue storage GatewayStep s₀ s ∧ s₀.Idle ∧ s₀.history = [] ∧
    Unstarted s₀.world ∧ Reopened s.history "game" ∧ s.world.events.get "game" = some event ∧
    event.archivedAt = none ∧ event.scheduledCloseAt = some 0 ∧
    (s.world.events.setScheduledCloseAt 10 "game" (some 20)).1 = false ∧
    (s.world.events.setScheduledCloseAt 10 "game" none).1 = false ∧
    (((apply sampleBot sampleDetails).run storage (fun _ => adminDay 10) s.world).1.toBool =
      false) := by
  have hevent : (reopenedPlant.world.events.get "game").any (fun event =>
      event.archivedAt.isNone && event.scheduledCloseAt = some 0) = true := by decide +kernel
  have hset : (reopenedPlant.world.events.setScheduledCloseAt 10 "game" (some 20)).1 = false := by
    decide +kernel
  have hclear : (reopenedPlant.world.events.setScheduledCloseAt 10 "game" none).1 = false := by
    decide +kernel
  have hdetails : ((apply sampleBot sampleDetails).run storage (fun _ => adminDay 10)
      reopenedPlant.world).1.toBool = false := by
    decide +kernel
  have hreached := reopenedPlant_reached
  have hreopened := reopenedPlant_reopened
  generalize reopenedPlant = s at hevent hset hclear hdetails hreached hreopened
  simp only [Option.any_eq_true, Bool.and_eq_true, Option.isNone_iff_eq_none,
    decide_eq_true_eq] at hevent
  obtain ⟨event, hget, hopen, hclosedAt⟩ := hevent
  exact ⟨closingPlant, s, event, hreached, fun _ => rfl, rfl, closingWorld_unstarted, hreopened,
    hget, hopen, hclosedAt, hset, hclear, hdetails⟩

end Samples

end LarpBot
