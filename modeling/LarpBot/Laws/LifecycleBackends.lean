import LarpBot.Adapters.YdbEvents

/-!
# Two lifecycles of an event

The repositories on DynamoDB and on YDB move an event alike while no call meets a guard that only one of
them has (`lifecycles_agree`). A manual opening lifts a time gate on DynamoDB alone
(`gate_stays`); a status or a deadline that is stored already is written again there; and on
YDB a confirmation that is open counts as opened by its schedule, while an event without a closing time, or
with closing notices that are all sent, is not closed though the answer says so.
-/

namespace LarpBot

open Atomic

/-- What one of the repositories would do and the other one not, the call does not meet; and its
instants are timestamps of YDB. -/
def LifecycleMethod.Meets : LifecycleMethod → Time → Events → Prop
  | setStatus eventId status, now, events =>
    isTimestamp now ∧ ∀ event, events.get eventId = some event →
      event.status ≠ status ∧ ¬ (status = .created ∧ event.registrationOpenAt.any (now < ·))
  | setRegistrationOpenAt _ opensAt, now, _ => (∀ time ∈ opensAt, isTimestamp time) ∧ isTimestamp now
  | setConfirmationSchedule _ opensAt deadline, now, _ =>
    opensAt.isNone ≠ deadline.isNone ∨
      (∀ time ∈ opensAt, isTimestamp time) ∧ (∀ time ∈ deadline, isTimestamp time) ∧ isTimestamp now
  | openConfirmation eventId deadline, now, events =>
    (isTimestamp deadline ∧ isTimestamp now) ∧ ∀ event, events.get eventId = some event →
      event.status ≠ .confirmationOpen ∨ event.confirmationDeadline ≠ some deadline
  | openScheduledConfirmation eventId opensAt deadline, now, events =>
    (isTimestamp opensAt ∧ isTimestamp deadline ∧ isTimestamp now) ∧
      ∀ event, events.get eventId = some event →
        ¬ (event.archivedAt = none ∧ event.confirmationDeadline = some deadline ∧
          event.status = .confirmationOpen ∧ event.confirmationOpenAt = none)
  | setScheduledCloseAt _ closesAt, now, _ => (∀ time ∈ closesAt, isTimestamp time) ∧ isTimestamp now
  | startScheduledClose eventId _ startedAt, _, events =>
    ∀ event, events.get eventId = some event → event.archivedAt = none →
      event.scheduledCloseOperationId = none →
        isTimestamp startedAt ∧ event.scheduledCloseAt.isSome ∧ event.scheduledCloseCompletedAt = none
  | completeScheduledCloseActions eventId operationId completedAt, _, events =>
    ∀ event, events.get eventId = some event → event.archivedAt = none →
      event.scheduledCloseOperationId = some operationId →
        isTimestamp completedAt ∧ event.scheduledCloseCompletedAt = none
  | archive _ archivedAt, _, _ => isTimestamp archivedAt
  | unarchive _ updatedAt, _, _ => isTimestamp updatedAt

/-! ## Guards -/

namespace YdbEvents

variable {events : Events} {now : Time} {eventId : EventId} {times : List Time}
  {condition : Event → Truth} {f : Event → Event} {hf : ∀ event, (f event).eventId = event.eventId}

/-- The guard of an update, as a test of the event. -/
theorem update_eq_when (htimes : times.all isTimestamp) {p : Event → Bool}
    (hp : ∀ event, (condition event).holds = p event) :
    update events times eventId condition f hf =
      LifecycleMethod.answered (events.when eventId p f hf) := by
  have hguard : ∀ event, (guarded eventId condition event).holds =
      (decide (event.eventId = eventId) && p event) := by
    intro event
    rw [guarded, Truth.holds_and, Truth.holds_is, hp]
  rw [update, ydbQuery_of htimes, Table.touches_of_key hguard, Table.update_of_key hguard,
    LifecycleMethod.answered]
  unfold Events.when Events.get
  cases hfound : events.find? eventId with
  | none => rfl
  | some event => by_cases hevent : p event <;> simp [hevent]

/-- Where the guard lets the event pass, it does not matter what else the guard asks. -/
theorem when_eq_always {p changed : Event → Bool} (h : ∀ event, events.get eventId = some event →
    p event = true ∧ changed event = true) :
    events.when eventId p f hf = events.always eventId changed f hf := by
  cases hfound : events.get eventId with
  | none => simp [Events.when, Events.always, hfound]
  | some event =>
    obtain ⟨hp, hchanged⟩ := h event hfound
    simp [Events.when, Events.always, hfound, hp, hchanged]

theorem when_congr {p q : Event → Bool} (h : ∀ event, events.get eventId = some event →
    p event = q event) : events.when eventId p f hf = events.when eventId q f hf := by
  cases hfound : events.get eventId with
  | none => simp [Events.when, hfound]
  | some event => simp [Events.when, hfound, h event hfound]

/-- What is written counts only for the event that passes the test. -/
theorem when_same {p : Event → Bool} {g : Event → Event} {hg : ∀ event, (g event).eventId = event.eventId}
    (h : ∀ event, events.get eventId = some event → p event = true → f event = g event) :
    events.when eventId p f hf = events.when eventId p g hg := by
  cases hfound : events.get eventId with
  | none => simp [Events.when, hfound]
  | some event =>
    by_cases hevent : p event = true
    · have hrows : events.modify eventId f hf = events.modify eventId g hg := by
        ext1
        rw [Table.rows_modify, Table.rows_modify]
        apply List.map_congr_left
        intro row hrow
        by_cases hrowId : row.eventId = eventId
        · have hsame : row = event := Table.eq_of_key_eq hrow (Table.mem_of_find? hfound)
            (hrowId.trans (Events.eventId_of_get hfound).symm)
          rw [if_pos hrowId, if_pos hrowId, hsame, h event hfound hevent]
        · rw [if_neg hrowId, if_neg hrowId]
      rw [Events.when_of_get hfound hevent, Events.when_of_get hfound hevent, hrows]
    · simp [Events.when, hfound, hevent]

end YdbEvents

/-! ## Single methods -/

namespace LifecycleMethod

variable {events : Events} {now : Time} {eventId : EventId}

open YdbEvents

theorem setStatus_agrees {status : EventStatus} (h : (setStatus eventId status).Meets now events) :
    ydb (.setStatus eventId status) now events = dynamo (.setStatus eventId status) now events := by
  obtain ⟨hnow, hevent⟩ := h
  have hmanual : (status = .created && (events.get eventId).any fun event =>
      event.registrationOpenAt.any (now < ·)) = false := by
    rw [← Bool.not_eq_true, Bool.and_eq_true, Option.any_eq_true]
    rintro ⟨hcreated, event, hfound, hgate⟩
    exact (hevent event hfound).2 ⟨of_decide_eq_true hcreated, hgate⟩
  have hdynamo : dynamo (.setStatus eventId status) now events =
      answered (events.setStatus now eventId status) := by
    simp [dynamo, EventMemory.setStatus, hmanual]
  rw [hdynamo, Events.setStatus, ← when_eq_always fun event hfound => ?_]
  · exact update_eq_when (by simpa using hnow) fun event => Truth.holds_is _
  · exact ⟨decide_eq_true (hevent event hfound).1, decide_eq_true (hevent event hfound).1⟩

theorem openConfirmation_agrees {deadline : Time}
    (h : (openConfirmation eventId deadline).Meets now events) :
    ydb (.openConfirmation eventId deadline) now events =
      dynamo (.openConfirmation eventId deadline) now events := by
  obtain ⟨htimes, hevent⟩ := h
  have hguard : ∀ event : Event, ((Truth.is (event.status ≠ .confirmationOpen)).or
      ((Truth.isNull event.confirmationDeadline).or
        (.unequal event.confirmationDeadline (some deadline)))).holds =
      (decide (event.status ≠ .confirmationOpen) || decide (event.confirmationDeadline ≠ some deadline)) := by
    intro event
    cases event.confirmationDeadline with
    | none => simp
    | some stored => simp
  show _ = answered (events.openConfirmation now eventId deadline)
  rw [Events.openConfirmation, ← when_eq_always fun event hfound => ?_]
  · exact update_eq_when (by simpa using htimes) hguard
  · have hchanged := hevent event hfound
    simpa using hchanged

theorem openScheduledConfirmation_agrees {opensAt deadline : Time}
    (h : (openScheduledConfirmation eventId opensAt deadline).Meets now events) :
    ydb (.openScheduledConfirmation eventId opensAt deadline) now events =
      dynamo (.openScheduledConfirmation eventId opensAt deadline) now events := by
  obtain ⟨htimes, hevent⟩ := h
  refine (update_eq_when (by simpa using htimes) fun event => rfl).trans ?_
  show _ = answered (events.openScheduledConfirmation now eventId opensAt deadline)
  rw [Events.openScheduledConfirmation, when_congr fun event hfound => ?_]
  have hopen := hevent event hfound
  rw [Bool.eq_iff_iff]
  simp only [Truth.holds_and, Truth.holds_or, Truth.holds_is, Truth.holds_isNull,
    Truth.holds_equal_some, Bool.and_eq_true, Bool.or_eq_true, decide_eq_true_eq,
    Option.isNone_iff_eq_none]
  tauto

theorem startScheduledClose_agrees {operationId : OperationId} {startedAt : Time}
    (h : (startScheduledClose eventId operationId startedAt).Meets now events) :
    ydb (.startScheduledClose eventId operationId startedAt) now events =
      dynamo (.startScheduledClose eventId operationId startedAt) now events := by
  show YdbEvents.startScheduledClose events eventId operationId startedAt =
    answered (events.startScheduledClose startedAt eventId operationId)
  unfold YdbEvents.startScheduledClose Events.startScheduledClose
  cases hfound : events.get eventId with
  | none => rfl
  | some event =>
    dsimp only
    by_cases hstarted : event.scheduledCloseOperationId = some operationId
    · rw [if_pos hstarted, if_pos hstarted]
      rfl
    · rw [if_neg hstarted, if_neg hstarted]
      by_cases hover : (event.archivedAt.isSome || event.scheduledCloseOperationId.isSome) = true
      · rw [if_pos hover, if_pos hover]
        rfl
      · simp only [Bool.or_eq_true, not_or, Option.not_isSome_iff_eq_none] at hover
        obtain ⟨htime, hcloses, hunfinished⟩ := h event hfound hover.1 hover.2
        rw [if_neg (by simp [hover]), if_neg (by simp [hover]),
          update_eq_when (by simpa using htime) fun event => rfl, Events.when_of_get hfound]
        · rfl
        · simp [hover, hcloses, hunfinished]

theorem completeScheduledCloseActions_agrees {operationId : OperationId} {completedAt : Time}
    (h : (completeScheduledCloseActions eventId operationId completedAt).Meets now events) :
    ydb (.completeScheduledCloseActions eventId operationId completedAt) now events =
      dynamo (.completeScheduledCloseActions eventId operationId completedAt) now events := by
  show YdbEvents.completeScheduledCloseActions events eventId operationId completedAt =
    answered (events.completeScheduledCloseActions completedAt eventId operationId)
  unfold YdbEvents.completeScheduledCloseActions Events.completeScheduledCloseActions
  cases hfound : events.get eventId with
  | none => rfl
  | some event =>
    dsimp only
    by_cases hother : event.scheduledCloseOperationId ≠ some operationId
    · rw [if_pos hother, if_pos hother]
      rfl
    · rw [if_neg hother, if_neg hother]
      by_cases harchived : event.archivedAt.isSome = true
      · rw [if_pos harchived, if_pos harchived]
        rfl
      · have hkept := Option.not_isSome_iff_eq_none.mp harchived
        obtain ⟨htime, hunfinished⟩ := h event hfound hkept (not_not.mp hother)
        rw [if_neg harchived, if_neg harchived,
          update_eq_when (by simpa using htime) fun event => rfl, Events.when_of_get hfound]
        · rfl
        · simp [hkept, not_not.mp hother, hunfinished]

theorem setConfirmationSchedule_agrees {opensAt deadline : Option Time}
    (h : (setConfirmationSchedule eventId opensAt deadline).Meets now events) :
    ydb (.setConfirmationSchedule eventId opensAt deadline) now events =
      dynamo (.setConfirmationSchedule eventId opensAt deadline) now events := by
  show YdbEvents.setConfirmationSchedule events now eventId opensAt deadline =
    events.setConfirmationSchedule now eventId opensAt deadline
  unfold YdbEvents.setConfirmationSchedule Events.setConfirmationSchedule
  by_cases htogether : opensAt.isNone ≠ deadline.isNone
  · rw [if_pos htogether, if_pos htogether]
  · obtain ⟨hopens, hdeadline, hnow⟩ := h.resolve_left htogether
    rw [if_neg htogether, if_neg htogether]
    refine update_eq_when ?_ fun event => by simp
    simp only [List.all_append, List.all_cons, List.all_nil, Bool.and_true, Bool.and_eq_true,
      List.all_eq_true, Option.mem_toList]
    exact ⟨⟨hopens, hdeadline⟩, hnow⟩

/-- The instants of a call with one that may be absent. -/
theorem all_timestamps {time : Option Time} (h : (∀ t ∈ time, isTimestamp t) ∧ isTimestamp now) :
    (time.toList ++ [now]).all isTimestamp := by
  cases time <;> simpa using h

theorem setScheduledCloseAt_agrees {closesAt : Option Time}
    (h : (setScheduledCloseAt eventId closesAt).Meets now events) :
    ydb (.setScheduledCloseAt eventId closesAt) now events =
      dynamo (.setScheduledCloseAt eventId closesAt) now events := by
  have hguard : ∀ event : Event, ((Truth.isNull event.scheduledCloseOperationId).and
      (.differs event.scheduledCloseAt closesAt)).holds =
      (event.scheduledCloseOperationId.isNone && decide (event.scheduledCloseAt ≠ closesAt)) := by
    intro event
    rw [Truth.holds_and, Truth.holds_isNull, Truth.holds_differs]
  refine (update_eq_when (all_timestamps h) hguard).trans (congrArg answered ?_)
  apply when_same
  intro event _ hevent
  rw [Bool.and_eq_true, Option.isNone_iff_eq_none] at hevent
  simp [hevent.1]

/-- A call that meets no guard of only one repository does the same in both. -/
theorem ydb_agrees {m : LifecycleMethod} (h : m.Meets now events) :
    ydb m now events = dynamo m now events := by
  cases m with
  | setStatus eventId status => exact setStatus_agrees h
  | setRegistrationOpenAt eventId opensAt =>
    exact update_eq_when (all_timestamps h) fun event => Truth.holds_differs _ _
  | setConfirmationSchedule eventId opensAt deadline => exact setConfirmationSchedule_agrees h
  | openConfirmation eventId deadline => exact openConfirmation_agrees h
  | openScheduledConfirmation eventId opensAt deadline => exact openScheduledConfirmation_agrees h
  | setScheduledCloseAt eventId closesAt => exact setScheduledCloseAt_agrees h
  | startScheduledClose eventId operationId startedAt => exact startScheduledClose_agrees h
  | completeScheduledCloseActions eventId operationId completedAt =>
    exact completeScheduledCloseActions_agrees h
  | archive eventId archivedAt =>
    exact update_eq_when (by simpa [Meets] using h) fun event => Truth.holds_isNull _
  | unarchive eventId updatedAt =>
    exact update_eq_when (by simpa [Meets] using h) fun event => Truth.holds_notNull _

end LifecycleMethod

/-- Both repositories answer every sequence of calls alike and hold the same events after it, if no
call meets a guard that only one of them has. -/
theorem lifecycles_agree {calls : List (LifecycleMethod × Time)} {events : Events}
    (hcalls : CallsMeet LifecycleMethod.dynamo LifecycleMethod.Meets calls events) :
    callAll LifecycleMethod.ydb calls events = callAll LifecycleMethod.dynamo calls events := by
  have hstep : ∀ (m : LifecycleMethod) (now : Time) (events : Events), True → m.Meets now events →
      LifecycleMethod.ydb m now events = LifecycleMethod.dynamo m now events ∧ True :=
    fun _ _ _ _ hmeets => ⟨LifecycleMethod.ydb_agrees hmeets, trivial⟩
  exact callAll_agree hstep trivial hcalls

/-- A game whose registration is to open at 100. -/
def gatedEvents : Events where
  rows := [{ eventId := "game", name := "Masquerade", registrationOpenAt := some 100 }]
  nodup := by decide

/-- The confirmation is scheduled and opens on time, and the game is closed. -/
def wholeLife : List (LifecycleMethod × Time) :=
  [(.setConfirmationSchedule "game" (some 200) (some 300), 150),
    (.openScheduledConfirmation "game" 200 300, 200),
    (.setScheduledCloseAt "game" (some 400), 350),
    (.startScheduledClose "game" "close" 400, 400),
    (.completeScheduledCloseActions "game" "close" 410, 410),
    (.unarchive "game" 420, 420)]

theorem wholeLife_agrees : callAll LifecycleMethod.ydb wholeLife gatedEvents =
    callAll LifecycleMethod.dynamo wholeLife gatedEvents := by
  refine lifecycles_agree ⟨.inr ⟨by decide, by decide, by decide⟩, ⟨⟨by decide, by decide, by decide⟩, ?_⟩,
    ⟨by decide, by decide⟩, ?_, ?_, (rfl : isTimestamp 420 = true), trivial⟩
  · intro event hfound
    obtain rfl := Option.some.inj hfound
    decide
  · intro event hfound
    obtain rfl := Option.some.inj hfound
    decide
  · intro event hfound
    obtain rfl := Option.some.inj hfound
    decide

/-- The registration is opened by hand before its time: it stays gated on YDB. -/
theorem gate_stays : ∃ (calls : List (LifecycleMethod × Time)) (events : Events),
    (callAll LifecycleMethod.ydb calls events).2 ≠ (callAll LifecycleMethod.dynamo calls events).2 := by
  refine ⟨[(.setStatus "game" .created, 50)], gatedEvents, ?_⟩
  decide +kernel

end LarpBot
