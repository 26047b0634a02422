import LarpBot.Laws.Closings

/-!
# A game closes on the schedule that is stored

The identifier of a close is derived from the schedule, and each stage compares the two. The one
write that does not is the start of the close: between the read of the schedule and this write the
gateway may move it. Where it does not, a close is only ever started under the stored schedule, and
no stored schedule leaves its close behind (`closes_on_schedule`).
-/

namespace LarpBot

open Atomic Act

variable {bot : Deployment} {tables : OtherServices} {latest : Time}

/-! ## Schedules -/

/-- The operation is derived from a schedule that was due for a dispatcher run at `latest`. -/
def IsDue (bot : Deployment) (latest : Time) (eventId : EventId) (operationId : OperationId) : Prop :=
  ∃ closesAt, closesAt < latest + dispatchWindow ∧
    operationId = closingOperationId bot eventId closesAt

/-- The close of the game belongs to its stored schedule. -/
def OnSchedule (bot : Deployment) (event : Event) (operationId : OperationId) : Prop :=
  ∃ closesAt, event.scheduledCloseAt = some closesAt ∧
    operationId = closingOperationId bot event.eventId closesAt

/-- A run of the dispatcher at some instant up to `latest` publishes the first stage of a game that
its scan has found due. -/
def Dispatches (bot : Deployment) (latest : Time) (command : OrderedRegistrationCommand) : Prop :=
  ∃ (event : Event) (closesAt now : Time), now ≤ latest ∧
    event.scheduledCloseAt = some closesAt ∧ closingDue event (now + dispatchWindow) = true ∧
    command = closingCommand event.eventId (closingOperationId bot event.eventId closesAt) .close

theorem Dispatches.isDue {command : OrderedRegistrationCommand}
    (h : Dispatches bot latest command) : IsDue bot latest command.eventId command.operationId := by
  obtain ⟨event, closesAt, now, hnow, hcloses, hdue, rfl⟩ := h
  refine ⟨closesAt, ?_, rfl⟩
  simp only [closingDue, hcloses, Option.any_some, Bool.and_eq_true, decide_eq_true_eq] at hdue
  have hcutoff : closesAt < now + dispatchWindow := hdue.1.1
  exact hcutoff.trans_le (Int.add_le_add_right hnow _)

/-- Any step: the first stage is queued by the dispatcher only. -/
def ScheduleStep (bot : Deployment) (latest : Time) (s : Plant) : Move → Prop
  | .publish command => command.operation = .scheduledCloseEvent → Dispatches bot latest command
  | .outside world => AroundClosings s.history s.world world
  | _ => True

/-- The step moves no schedule whose close is about to be started by the next call of an attempt. -/
def KeepsSchedule (s : Plant) : Move → Prop
  | .outside world => ∀ lane command eventId operationId,
      s.Calls lane command (.events (.startScheduledClose eventId operationId)) →
        ∀ event', world.events.get eventId = some event' →
          ∃ event, s.world.events.get eventId = some event ∧
            event'.scheduledCloseAt = event.scheduledCloseAt
  | _ => True

variable {s₀ s : Plant}

/-- The attempts of a reachable plant, with the ground of their calls. -/
theorem schedule_attempts
    (hs : Fleet.Reaches (queue bot (services bot tables)) storage (ScheduleStep bot latest) s₀ s)
    (htables : ∀ command, spares (fun _ => True) (tables command)) (hidle : s₀.Idle) :
    s.Attempts (queue bot (services bot tables))
      (fun command => command.operation = .scheduledCloseEvent → Dispatches bot latest command)
      (Fleet.Remembers (queue bot (services bot tables)) (Plausible (anyWorkbook : Legal))
        (Grounded bot) (fun _ _ _ => True) (fun _ _ _ => True)) := by
  refine (hs.trace_rule (A := Plausible (anyWorkbook : Legal)) (T := Grounded bot)
    (X := fun _ _ _ => True) (Q := fun _ _ _ => True)
    (K := fun _ command => command.operation = .scheduledCloseEvent → Dispatches bot latest command)
    (fun _ _ => True) hidle trivial ?_ ?_ ?_ ?_ ?_ ?_ ?_).2
  · exact fun command => grounded_process htables
  · exact fun _ _ _ hK => hK
  · exact fun s command hC _ => hC
  · exact fun _ _ _ _ => trivial
  · exact fun s lane i c _ _ => plausible_perform (respects_anyWorkbook i) fun _ _ => trivial
  · exact fun _ _ _ _ _ _ _ _ _ _ _ _ => trivial
  · exact fun _ _ _ _ _ _ _ _ _ _ _ => trivial

/-- When the next call of an attempt starts a close, the stored schedule is the one of the close. -/
def AboutToStart (bot : Deployment) (_ : OrderedRegistrationCommand) (p : Act Reply) (w : World) :
    Prop :=
  ∀ eventId operationId next, p = .call (.events (.startScheduledClose eventId operationId)) next →
    ∀ event, w.events.get eventId = some event → OnSchedule bot event operationId

/-- What the schedule of a game was before a call. -/
theorem schedule_before {c : Call} {i : Input} {w : World} {eventId : EventId} {event' : Event}
    (h : (c.perform i w).2.events.get eventId = some event') :
    ∃ event, w.events.get eventId = some event ∧ event.eventId = event'.eventId ∧
      event'.scheduledCloseAt = event.scheduledCloseAt := by
  obtain ⟨event, hevent, hid, hschedule, -⟩ := closing_perform (Table.mem_of_find? h)
  refine ⟨event, ?_, hid, hschedule⟩
  rw [← Events.eventId_of_get h, ← hid]
  exact Table.find?_key hevent

theorem aboutToStart_reached
    (hs : Fleet.Reaches (queue bot (services bot tables)) storage
      (fun s l => ScheduleStep bot latest s l ∧ KeepsSchedule s l) s₀ s)
    (htables : ∀ command, spares (fun _ => True) (tables command)) (hidle : s₀.Idle) :
    ∀ lane command p, s.Working lane command p → AboutToStart bot command p s.world := by
  refine hs.rely_rule (fun s => s.Attempts (queue bot (services bot tables))
      (fun command => command.operation = .scheduledCloseEvent → Dispatches bot latest command)
      (Fleet.Remembers (queue bot (services bot tables)) (Plausible (anyWorkbook : Legal))
        (Grounded bot) (fun _ _ _ => True) (fun _ _ _ => True)))
    (AboutToStart bot) hidle ?_ ?_ ?_ ?_ ?_
  · exact fun s hs => schedule_attempts (hs.mono fun _ _ h => h.1) htables hidle
  · -- an attempt starts no close with its first call
    intro s command _ eventId operationId next hp
    have hfirst : grounded bot command (fun _ _ => True)
        (process bot (services bot tables) command) [] :=
      grounded_process htables
    rw [show process bot (services bot tables) command = _ from hp] at hfirst
    obtain ⟨-, -, -, event, closesAt, rest, hmade, -⟩ := hfirst.1
    exact nomatch hmade
  · intro s lane i command c next hattempts _ hworking _ eventId operationId next' hp event hevent
    obtain ⟨rest, hlane⟩ := hworking
    obtain ⟨made, -, htraced⟩ := (hattempts lane).2 command _ rest hlane
    have hanswer : Plausible (anyWorkbook : Legal) c (c.perform i s.world).1 :=
      plausible_perform (respects_anyWorkbook i) fun _ _ => trivial
    have hnext := htraced.2 _ hanswer
    rw [hp] at hnext
    obtain ⟨-, rfl, -, found, closesAt, rest, hmade, hcloses, hoperation⟩ := hnext.1
    -- the call before the start was the read of the game
    obtain ⟨hread, -⟩ := List.cons.inj hmade
    obtain ⟨rfl, hfound⟩ := Sigma.mk.inj_iff.mp hread
    have hfound : s.world.events.get command.eventId = some found := eq_of_heq hfound
    have hsame : s.world.events.get command.eventId = some event := hevent
    obtain rfl : found = event := Option.some.inj (hfound.symm.trans hsame)
    exact ⟨closesAt, hcloses, by rw [Events.eventId_of_get hfound]; exact hoperation⟩
  · intro s lane i command c next lane' command' p _ _ _ _ _ hknows eventId operationId next' hp event
      hevent
    obtain ⟨before, hbefore, hid, hschedule⟩ := schedule_before hevent
    obtain ⟨closesAt, hcloses, hoperation⟩ := hknows eventId operationId next' hp before hbefore
    exact ⟨closesAt, hschedule.trans hcloses, hid ▸ hoperation⟩
  · intro s w lane command p _ hC hworking hknows eventId operationId next hp event hevent
    rw [hp] at hworking
    obtain ⟨before, hbefore, hschedule⟩ :=
      hC.2 lane command eventId operationId hworking.calls event hevent
    obtain ⟨closesAt, hcloses, hoperation⟩ := hknows eventId operationId next hp before hbefore
    refine ⟨closesAt, hschedule.trans hcloses, ?_⟩
    rw [Events.eventId_of_get hbefore] at hoperation
    rw [Events.eventId_of_get hevent]
    exact hoperation

/-! ## Runs -/

/-- Every close under way belongs to its stored schedule and was due when it was dispatched, and so
was every close when it was started. -/
structure Punctual (bot : Deployment) (latest : Time) (history : Trail) (w : World) : Prop where
  marks : ∀ event ∈ w.events.rows, ∀ operationId,
    event.scheduledCloseOperationId = some operationId →
      OnSchedule bot event operationId ∧ IsDue bot latest event.eventId operationId
  starts : ∀ command eventId operationId before after,
    .called (S := ports) command (.events (.startScheduledClose eventId operationId)) before true
      after ∈ history → ∀ event, before.events.get eventId = some event →
        OnSchedule bot event operationId ∧ IsDue bot latest eventId operationId

namespace Punctual

variable {history : Trail} {w w' : World} {command : OrderedRegistrationCommand} {c : Call}
  {i : Input}

theorem around (h : Punctual bot latest history w) (haround : AroundClosings history w w') :
    Punctual bot latest history w' := by
  refine ⟨?_, h.starts⟩
  intro event' hevent' operationId hstarted
  cases haround with
  | rest _ hevents =>
    rcases hevents event' hevent' with ⟨event, hevent, hsame⟩ | hnew
    · rw [hsame.operation] at hstarted
      obtain ⟨⟨closesAt, hcloses, hoperation⟩, hdue⟩ := h.marks event hevent operationId hstarted
      rw [hsame.id] at hoperation hdue
      exact ⟨⟨closesAt, hsame.schedule.trans hcloses, hoperation⟩, hdue⟩
    · rw [hnew.operation] at hstarted
      exact nomatch hstarted
  | reschedule eventId closesAt now _ hevents =>
    rw [hevents] at hevent'
    rcases EventCall.amended_when hevent' with hold | ⟨event, hevent, -, htest, rfl⟩
    · exact h.marks event' hold operationId hstarted
    · -- only the schedule of a close that has not started is moved
      simp only [Bool.and_eq_true, Option.isNone_iff_eq_none] at htest
      have hnone : event.scheduledCloseOperationId = none := htest.1
      rw [show event.scheduledCloseOperationId = some operationId from hstarted] at hnone
      exact nomatch hnone

theorem called (h : Punctual bot latest history w)
    (hstart : ∀ eventId operationId, c = .events (.startScheduledClose eventId operationId) →
      IsDue bot latest eventId operationId ∧
        ∀ event, w.events.get eventId = some event → OnSchedule bot event operationId) :
    Punctual bot latest
      (.called (S := ports) command c w (c.perform i w).1 (c.perform i w).2 :: history)
      (c.perform i w).2 := by
  constructor
  · intro event' hevent' operationId hstarted
    obtain ⟨event, hevent, hid, hschedule, hchange⟩ := closing_perform hevent'
    have kept (hbefore : event.scheduledCloseOperationId = some operationId) :
        OnSchedule bot event' operationId ∧ IsDue bot latest event'.eventId operationId := by
      obtain ⟨⟨closesAt, hcloses, hoperation⟩, hdue⟩ := h.marks event hevent operationId hbefore
      rw [hid] at hoperation hdue
      exact ⟨⟨closesAt, hschedule.trans hcloses, hoperation⟩, hdue⟩
    cases hchange with
    | none hoperation => exact kept (hoperation ▸ hstarted)
    | archive _ _ _ hoperation => exact kept (hoperation ▸ hstarted)
    | finish _ _ hbefore hoperation => exact kept (hbefore.trans (hoperation.symm.trans hstarted))
    | start operationId' hc _ _ hoperation =>
      obtain rfl : operationId' = operationId := Option.some.inj (hoperation.symm.trans hstarted)
      obtain ⟨hdue, hstored⟩ := hstart _ _ hc
      obtain ⟨closesAt, hcloses, hsame⟩ := hstored event (Table.find?_key hevent)
      rw [hid] at hsame hdue
      exact ⟨⟨closesAt, hschedule.trans hcloses, hsame⟩, hdue⟩
  · intro command' eventId operationId before after hrecord event hevent
    rcases List.mem_cons.mp hrecord with hnew | hold
    · obtain ⟨-, hc, hbefore, -, -⟩ := Record.called.inj hnew
      obtain ⟨hdue, hstored⟩ := hstart eventId operationId hc.symm
      exact ⟨hstored event (hbefore ▸ hevent), hdue⟩
    · exact h.starts command' eventId operationId before after hold event hevent

theorem finished (h : Punctual bot latest history w) (value : Reply) :
    Punctual bot latest (.finished command value :: history) w := by
  refine ⟨h.marks, ?_⟩
  intro command' eventId operationId before after hrecord
  rcases List.mem_cons.mp hrecord with hnew | hold
  · exact nomatch hnew
  · exact h.starts command' eventId operationId before after hold

end Punctual

theorem punctual_reached
    (hs : Fleet.Reaches (queue bot (services bot tables)) storage
      (fun s l => ScheduleStep bot latest s l ∧ KeepsSchedule s l) s₀ s)
    (htables : ∀ command, spares (fun _ => True) (tables command)) (hidle : s₀.Idle)
    (hnew : s₀.history = []) (hunstarted : Unstarted s₀.world) :
    Punctual bot latest s.history s.world := by
  refine (hs.reached.trace_rule (A := Plausible (anyWorkbook : Legal)) (T := Grounded bot)
    (X := fun _ _ _ => True) (Q := fun _ _ _ => True)
    (K := fun _ command => command.operation = .scheduledCloseEvent → Dispatches bot latest command)
    (Punctual bot latest) hidle ?_ ?_ ?_ ?_ ?_ ?_ ?_ ?_).1
  · rw [hnew]
    constructor
    · intro event hevent operationId hstarted
      rw [hunstarted.operation event hevent] at hstarted
      exact nomatch hstarted
    · exact fun _ _ _ _ _ hrecord => absurd hrecord List.not_mem_nil
  · exact fun command => grounded_process htables
  · exact fun _ _ _ hK => hK
  · exact fun s command hC _ => hC.1.1
  · exact fun s w hC hinv => hinv.around hC.1.1
  · exact fun s lane i c _ _ => plausible_perform (respects_anyWorkbook i) fun _ _ => trivial
  · intro s lane i command c made hC hcalls hK _ hground hinv
    refine hinv.called ?_
    rintro eventId operationId rfl
    obtain ⟨hstage, rfl, rfl, -⟩ := hground
    refine ⟨(hK hstage).isDue, ?_⟩
    obtain ⟨next, rest, hlane⟩ := hcalls
    exact aboutToStart_reached hC.2 htables hidle lane command _ ⟨rest, hlane⟩ _ _ next rfl
  · exact fun s lane command value made _ _ _ _ _ hinv => hinv.finished value

/-- In every run in which no schedule is moved between the last read of an attempt and its start of
the close, each close under way belongs to the stored schedule of its game, each close was started
while the stored schedule was the one that its operation is derived from, and the operation is that
of a schedule which some run of the dispatcher has found due. -/
theorem closes_on_schedule
    (hs : Fleet.Reaches (queue bot (services bot tables)) storage
      (fun s l => ScheduleStep bot latest s l ∧ KeepsSchedule s l) s₀ s)
    (htables : ∀ command, spares (fun _ => True) (tables command)) (hidle : s₀.Idle)
    (hnew : s₀.history = []) (hunstarted : Unstarted s₀.world) :
    (∀ eventId event operationId, s.world.events.get eventId = some event →
      event.scheduledCloseOperationId = some operationId →
        OnSchedule bot event operationId ∧ IsDue bot latest eventId operationId) ∧
    ∀ command eventId operationId before after,
      .called (S := ports) command (.events (.startScheduledClose eventId operationId)) before true
        after ∈ s.history → ∀ event, before.events.get eventId = some event →
          OnSchedule bot event operationId ∧ IsDue bot latest eventId operationId := by
  have hpunctual := punctual_reached hs htables hidle hnew hunstarted
  refine ⟨?_, hpunctual.starts⟩
  intro eventId event operationId hevent hstarted
  obtain rfl := Events.eventId_of_get hevent
  exact hpunctual.marks event (Table.mem_of_find? hevent) operationId hstarted

/-! ## A schedule that is moved -/

section Samples

theorem sampleStage_dispatched : Dispatches sampleBot 0 (sampleStage .close) :=
  ⟨{ eventId := "game", name := "Игра", scheduledCloseAt := some 0 }, 0, 0, le_refl _, rfl,
    by decide, rfl⟩

/-- The three stages as queued by the dispatcher and by each other. -/
def dispatchedOnly : Move → Bool
  | .publish command => command.operation ≠ .scheduledCloseEvent || command = sampleStage .close
  | .outside _ => false
  | _ => true

theorem scheduleStep_of_check {s : Plant} {l : Move} (h : dispatchedOnly l = true) :
    ScheduleStep sampleBot 0 s l ∧ KeepsSchedule s l := by
  cases l with
  | publish command =>
    refine ⟨fun hop => ?_, trivial⟩
    have hcommand : command = sampleStage .close := by simpa [dispatchedOnly, hop] using h
    exact hcommand ▸ sampleStage_dispatched
  | outside world => exact nomatch h
  | _ => exact ⟨trivial, trivial⟩

theorem completedPlant_onSchedule : ∃ event operationId,
    completedPlant.world.events.get "game" = some event ∧
      event.scheduledCloseOperationId = some operationId ∧
      OnSchedule sampleBot event operationId ∧ IsDue sampleBot 0 "game" operationId := by
  have hstarted : (completedPlant.world.events.get "game").any
      (·.scheduledCloseOperationId = some sampleClose) = true := by decide +kernel
  have hstored : (completedPlant.world.events.get "game").isSome := by decide +kernel
  have hreached : Fleet.Reaches closingQueue storage
      (fun s l => ScheduleStep sampleBot 0 s l ∧ KeepsSchedule s l) closingPlant completedPlant := by
    have hcheck : (stageMoves (sampleStage .close) 1 ++ stageMoves (sampleStage .statistics) 2 ++
        stageMoves (sampleStage .finalize) 3).all dispatchedOnly = true := by
      decide +kernel
    exact Fleet.Reaches.refl.play fun s l hl => scheduleStep_of_check (List.all_eq_true.mp hcheck l hl)
  generalize completedPlant = s at hstarted hstored hreached ⊢
  obtain ⟨event, hevent⟩ := Option.isSome_iff_exists.mp hstored
  rw [hevent, Option.any_some, decide_eq_true_eq] at hstarted
  obtain ⟨hmarks, -⟩ := closes_on_schedule hreached (fun _ => trivial) (fun _ => rfl) rfl
    closingWorld_unstarted
  obtain ⟨hschedule, hdue⟩ := hmarks "game" event sampleClose hevent hstarted
  exact ⟨event, sampleClose, hevent, hstarted, hschedule, hdue⟩

/-- The gateway moves the schedule by a quarter of an hour. -/
def movedWorld : World :=
  { closingWorld with
    events := (closingWorld.events.setScheduledCloseAt 1 "game" (some 900000000)).2 }

/-- The first stage has read the game and is about to start its close. -/
def readPlant : Plant :=
  closingPlant.play closingQueue storage
    [.publish (sampleStage .close), .start "game", .call "game" (goodDay 0)]

def movedPlant : Plant :=
  (readPlant.step closingQueue storage (.outside movedWorld)).step closingQueue storage
    (.call "game" (goodDay 2))

/-- The close is started under the schedule that was read, and not under the one that is stored. -/
theorem movedPlant_started : ∃ s₀ s : Plant,
    Fleet.Reaches closingQueue storage (ScheduleStep sampleBot 0) s₀ s ∧ s₀.Idle ∧
    s₀.history = [] ∧ Unstarted s₀.world ∧ ∃ event operationId,
      s.world.events.get "game" = some event ∧
      event.scheduledCloseOperationId = some operationId ∧ ¬ OnSchedule sampleBot event operationId := by
  have hread : Fleet.Reaches closingQueue storage (ScheduleStep sampleBot 0) closingPlant readPlant := by
    refine Fleet.Reaches.refl.play fun s l hl => (scheduleStep_of_check ?_).1
    have hcheck : ([.publish (sampleStage .close), .start "game", .call "game" (goodDay 0)] :
        List Move).all dispatchedOnly = true := by
      decide +kernel
    exact List.all_eq_true.mp hcheck l hl
  have hmove : AroundClosings readPlant.history readPlant.world movedWorld :=
    .reschedule "game" (some 900000000) 1 rfl rfl
  have hreached : Fleet.Reaches closingQueue storage (ScheduleStep sampleBot 0) closingPlant
      movedPlant :=
    .step (.step hread hmove) trivial
  have hmarks : (movedPlant.world.events.get "game").any (fun event =>
      event.scheduledCloseOperationId = some sampleClose &&
        event.scheduledCloseAt = some 900000000 && event.eventId = "game") = true := by
    decide +kernel
  have hstored : (movedPlant.world.events.get "game").isSome := by decide +kernel
  generalize movedPlant = s at hreached hmarks hstored
  obtain ⟨event, hevent⟩ := Option.isSome_iff_exists.mp hstored
  simp only [hevent, Option.any_some, Bool.and_eq_true, decide_eq_true_eq] at hmarks
  obtain ⟨⟨hstarted, hcloses⟩, hid⟩ := hmarks
  refine ⟨closingPlant, s, hreached, fun _ => rfl, rfl, closingWorld_unstarted, event, sampleClose,
    hevent, hstarted, ?_⟩
  rintro ⟨closesAt, hschedule, hoperation⟩
  rw [hcloses] at hschedule
  obtain rfl := Option.some.inj hschedule
  rw [hid] at hoperation
  exact absurd hoperation (by decide +kernel)

end Samples

end LarpBot
