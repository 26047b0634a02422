import LarpBot.Laws.ClosingStages
import LarpBot.Laws.EventChanges
import LarpBot.Laws.Runs

/-!
# A completed close has been entered in the statistics

The marks of an automatic close are four fields of the event, and each stage infers from them how
far the stages before it have come. That the game was archived counts as a sign that the statistics
are done, but a master can archive a game too.
-/

namespace LarpBot

open Atomic Act

/-! ## The marks of a close -/

/-- What a call may do to the marks of a close. -/
inductive ClosingChange (c : Call) (event event' : Event) : Prop
  | none (hoperation : event'.scheduledCloseOperationId = event.scheduledCloseOperationId)
      (hcompleted : event'.scheduledCloseCompletedAt = event.scheduledCloseCompletedAt)
      (harchived : event'.archivedAt = event.archivedAt ∨ event'.archivedAt = .none)
  | archive (archivedAt : Time) (hc : c = .events (.archive event.eventId archivedAt))
      (hopen : event.archivedAt = .none)
      (hoperation : event'.scheduledCloseOperationId = event.scheduledCloseOperationId)
      (hcompleted : event'.scheduledCloseCompletedAt = event.scheduledCloseCompletedAt)
  | start (operationId : OperationId)
      (hc : c = .events (.startScheduledClose event.eventId operationId))
      (hopen : event.archivedAt = .none) (hnew : event.scheduledCloseOperationId = .none)
      (hoperation : event'.scheduledCloseOperationId = some operationId)
      (hcompleted : event'.scheduledCloseCompletedAt = event.scheduledCloseCompletedAt)
      (harchived : event'.archivedAt = event.archivedAt)
  | finish (operationId : OperationId)
      (hc : c = .events (.completeScheduledCloseActions event.eventId operationId) ∨
        c = .events (.completeScheduledCloseNotifications event.eventId operationId))
      (hstarted : event.scheduledCloseOperationId = some operationId)
      (hoperation : event'.scheduledCloseOperationId = some operationId)

/-- Every event after a call comes from an event of the same identifier and the same schedule. -/
theorem closing_perform {c : Call} {i : Input} {w : World} {event' : Event}
    (h : event' ∈ (c.perform i w).2.events.rows) :
    ∃ event ∈ w.events.rows, event.eventId = event'.eventId ∧
      event'.scheduledCloseAt = event.scheduledCloseAt ∧ ClosingChange c event event' := by
  have unchanged (hold : event' ∈ w.events.rows) : ∃ event ∈ w.events.rows,
      event.eventId = event'.eventId ∧ event'.scheduledCloseAt = event.scheduledCloseAt ∧
        ClosingChange c event event' :=
    ⟨event', hold, rfl, rfl, .none rfl rfl (.inl rfl)⟩
  cases c with
  | events c =>
    rcases EventCall.mem_perform h with hold | ⟨event, hevent, habout, hguard, rfl⟩
    · exact unchanged hold
    refine ⟨event, hevent, (EventCall.eventId_amend c event).symm, ?_⟩
    cases c with
    | archive e archivedAt =>
      obtain rfl : e = event.eventId := Option.some.inj habout
      exact ⟨rfl, .archive archivedAt rfl hguard rfl rfl⟩
    | unarchive => exact ⟨rfl, .none rfl rfl (.inr rfl)⟩
    | startScheduledClose e op =>
      obtain rfl : e = event.eventId := Option.some.inj habout
      exact ⟨rfl, .start op rfl hguard.1 hguard.2 rfl rfl rfl⟩
    | completeScheduledCloseActions e op =>
      obtain rfl : e = event.eventId := Option.some.inj habout
      exact ⟨rfl, .finish op (.inl rfl) hguard hguard⟩
    | completeScheduledCloseNotifications e op =>
      obtain rfl : e = event.eventId := Option.some.inj habout
      simp only [EventCall.amend]
      split
      · next hdone => exact ⟨rfl, .finish op (.inr rfl) hdone.1 hdone.1⟩
      · exact ⟨rfl, .none rfl rfl (.inl rfl)⟩
    | setParticipantRemoval | addParticipantRemovalKeys | markParticipantRemovalDelivered
    | markScheduledCloseNotificationDelivered =>
      simp only [EventCall.amend]
      split <;> exact ⟨rfl, .none rfl rfl (.inl rfl)⟩
    | _ => exact ⟨rfl, .none rfl rfl (.inl rfl)⟩
  | outside c =>
    rw [Call.perform, c.events_record] at h
    exact unchanged h
  | _ => exact unchanged h

/-- What is published after a call was published before, or by the call. -/
theorem published_perform {c : Call} {i : Input} {w : World} {command : OrderedRegistrationCommand}
    (h : command ∈ (c.perform i w).2.published) :
    command ∈ w.published ∨ c = .outside (.publish command) := by
  cases c with
  | outside c =>
    rw [Call.perform] at h
    unfold OutsideCall.record at h
    split at h
    · exact .inl h
    · exact .inl h
    · rcases List.mem_append.mp h with hold | hnew
      · exact .inl hold
      · rw [List.mem_singleton.mp hnew]
        exact .inr rfl
    · exact .inl h
  | _ => exact .inl h

/-- What is published stays published. -/
theorem published_stays {c : Call} {i : Input} {w : World} {command : OrderedRegistrationCommand}
    (h : command ∈ w.published) : command ∈ (c.perform i w).2.published := by
  cases c with
  | outside c =>
    rw [Call.perform]
    unfold OutsideCall.record
    split
    · exact h
    · exact h
    · exact List.mem_append_left _ h
    · exact h
  | _ => exact h

/-! ## Histories -/

section Histories

abbrev Trail := List (Record ports Reply OrderedRegistrationCommand World)

/-- Some call has left the game with this close under way. -/
def Started (history : Trail) (eventId : EventId) (operationId : OperationId) : Prop :=
  ∃ (command : OrderedRegistrationCommand) (c : Call) (before : World) (answer : c.Ans)
    (after : World), Record.called (S := ports) command c before answer after ∈ history ∧
      ∃ event, after.events.get eventId = some event ∧
        event.scheduledCloseOperationId = some operationId

variable (bot : Deployment)

/-- An attempt at the second stage of a close has entered the game in the statistics: `addGame` was
run to its end. -/
def Entered (otherServices : OtherServices) (history : Trail) (eventId : EventId)
    (operationId : OperationId) : Prop :=
  ∃ command : OrderedRegistrationCommand, command.operation = .scheduledCloseStatistics ∧
    command.eventId = eventId ∧
    command.operationId = stageOperationId bot operationId "statistics" ∧
    Performed (queue bot otherServices) command history (addGame bot eventId command.operationId)

variable {bot} {otherServices : OtherServices} {history history' : Trail} {eventId : EventId}
  {operationId : OperationId}

theorem Started.later (h : Started history eventId operationId) (hlater : history <:+ history') :
    Started history' eventId operationId := by
  obtain ⟨command, c, before, answer, after, hrecord, hevent⟩ := h
  exact ⟨command, c, before, answer, after, hlater.subset hrecord, hevent⟩

theorem Entered.later (h : Entered bot otherServices history eventId operationId)
    (hlater : history <:+ history') : Entered bot otherServices history' eventId operationId := by
  obtain ⟨command, hop, hid, hstage, hperformed⟩ := h
  exact ⟨command, hop, hid, hstage, hperformed.later hlater⟩

/-- The statistics of the close of a game are done. -/
def Done (bot : Deployment) (otherServices : OtherServices) (history : Trail) (eventId : EventId) :
    Prop :=
  ∃ operationId, Started history eventId operationId ∧
    Entered bot otherServices history eventId operationId

theorem Done.later (h : Done bot otherServices history eventId) (hlater : history <:+ history') :
    Done bot otherServices history' eventId := by
  obtain ⟨operationId, hstarted, hentered⟩ := h
  exact ⟨operationId, hstarted.later hlater, hentered.later hlater⟩

/-- What a read of a game and a start of its close tell, given the records before them. -/
def ClosingLaw (bot : Deployment) (otherServices : OtherServices)
    (record : Record ports Reply OrderedRegistrationCommand World) (earlier : Trail) : Prop :=
  match record with
  | .called _ (.events (.get eventId)) _ answer after => ∀ event, answer = some event →
      after.events.get eventId = some event ∧
      (∀ operationId, Started earlier eventId operationId →
        event.scheduledCloseOperationId = some operationId) ∧
      (event.archivedAt.isSome → ∀ operationId,
        event.scheduledCloseOperationId = some operationId →
          Entered bot otherServices earlier eventId operationId)
  | .called _ (.events (.startScheduledClose eventId operationId)) _ answer after =>
    answer = true → ∃ event, after.events.get eventId = some event ∧
      event.scheduledCloseOperationId = some operationId
  | _ => True

/-- A read of a game is where its close has been seen under way. -/
theorem started_of_read {command : OrderedRegistrationCommand} {before after : World} {event : Event}
    (hlaw : Along (ClosingLaw bot otherServices) history)
    (hrecord : .called (S := ports) command (.events (.get eventId)) before (some event) after ∈ history)
    (hstarted : event.scheduledCloseOperationId = some operationId) :
    Started history eventId operationId := by
  obtain ⟨later, earlier, rfl⟩ := List.append_of_mem hrecord
  have hread := (hlaw.at event rfl).1
  exact ⟨command, _, before, _, after, hrecord, event, hread, hstarted⟩

/-- Where the last stage may be published, the statistics are done. -/
theorem FinalGround.done {command : OrderedRegistrationCommand} {made : List ports.Entry}
    (h : FinalGround bot command made) (hlaw : Along (ClosingLaw bot otherServices) history)
    (hmade : Made (queue bot otherServices) command history made) :
    Done bot otherServices history command.eventId := by
  cases h with
  | archived event hread harchived hstarted =>
    obtain ⟨operationId, hstarted⟩ := Option.isSome_iff_exists.mp hstarted
    obtain ⟨before, after, hrecord⟩ := hmade.mem hread
    refine ⟨operationId, started_of_read hlaw hrecord hstarted, ?_⟩
    obtain ⟨later, earlier, rfl⟩ := List.append_of_mem hrecord
    obtain ⟨-, -, hentered⟩ := hlaw.at event rfl
    exact (hentered harchived operationId hstarted).later (suffix_of_split later _ earlier)
  | restarted event operationId rest hmade' harchived =>
    rw [hmade'] at hmade
    obtain ⟨before, after, earlier, ⟨later, rfl⟩, hearlier⟩ := hmade.cons
    obtain ⟨before', after', earliest, ⟨between, rfl⟩, -⟩ := hearlier.cons
    obtain ⟨-, hstarted, hentered⟩ := hlaw.at event rfl
    have hstart : Started (between ++ .called (S := ports) command
        (.events (.startScheduledClose command.eventId operationId)) before' true after' :: earliest)
        command.eventId operationId := by
      rw [← List.cons_append, ← List.append_assoc] at hlaw
      exact ⟨command, _, before', _, after', List.mem_append_right _ List.mem_cons_self, hlaw.at rfl⟩
    exact ⟨operationId, hstart.later (suffix_of_split later _ _),
      (hentered harchived operationId (hstarted operationId hstart)).later (suffix_of_split later _ _)⟩
  | entered event operationId calls rest text hread hstarted hstage hid hcalls hmade' =>
    rw [hmade'] at hmade
    obtain ⟨before, after, hrecord⟩ := hmade.mem (List.mem_append_right _ hread)
    refine ⟨operationId, started_of_read hlaw hrecord hstarted, command, hstage, rfl, hid, ?_⟩
    exact ⟨history, calls, text, List.suffix_refl _, hcalls,
      hmade.latest (List.prefix_append _ _)⟩

/-! ## One step -/

/-- The marks of the closes tell what has been done. -/
structure Truthful (bot : Deployment) (otherServices : OtherServices) (history : Trail) (w : World) :
    Prop where
  started : ∀ event ∈ w.events.rows, ∀ operationId, Started history event.eventId operationId →
    event.scheduledCloseOperationId = some operationId
  completed : ∀ event ∈ w.events.rows, event.scheduledCloseCompletedAt.isSome →
    event.scheduledCloseOperationId.isSome
  entered : ∀ event ∈ w.events.rows, ∀ operationId,
    event.scheduledCloseOperationId = some operationId →
      event.archivedAt.isSome ∨ event.scheduledCloseCompletedAt.isSome →
        Entered bot otherServices history event.eventId operationId
  published : ∀ command ∈ w.published, command.operation = .scheduledCloseFinalize →
    Done bot otherServices history command.eventId
  law : Along (ClosingLaw bot otherServices) history

/-- Archiving the game does not hide from its close that the statistics are still to be done: no
close is under way, or its last stage has been published. -/
def ArchivesInTime (w : World) (eventId : EventId) : Prop :=
  ∀ event, w.events.get eventId = some event → event.archivedAt = none →
    event.scheduledCloseOperationId.isSome →
      ∃ command ∈ w.published, command.operation = .scheduledCloseFinalize ∧
        command.eventId = eventId

variable {w : World} {command : OrderedRegistrationCommand} {c : Call} {i : Input}

namespace Truthful

/-- The one close under way is the one whose statistics are done. -/
theorem entered_of_done (h : Truthful bot otherServices history w) {event : Event}
    (hevent : event ∈ w.events.rows) (hstarted : event.scheduledCloseOperationId = some operationId)
    (hdone : Done bot otherServices history event.eventId) :
    Entered bot otherServices history event.eventId operationId := by
  obtain ⟨done, hseen, hentered⟩ := hdone
  have hsame := h.started event hevent done hseen
  rw [hstarted] at hsame
  exact Option.some.inj hsame ▸ hentered

/-- A call tells the truth about what it has found. -/
theorem law_perform (h : Truthful bot otherServices history w) :
    ClosingLaw bot otherServices
      (.called (S := ports) command c w (c.perform i w).1 (c.perform i w).2) history := by
  cases c with
  | events c =>
    cases c with
    | get eventId =>
      intro event (hget : w.events.get eventId = some event)
      have hevent := Table.mem_of_find? hget
      obtain rfl := Events.eventId_of_get hget
      exact ⟨hget, h.started event hevent,
        fun harchived operationId hstarted => h.entered event hevent _ hstarted (.inl harchived)⟩
    | startScheduledClose eventId operationId =>
      intro (hanswer : (w.events.startScheduledClose (i .now) eventId operationId).1 = true)
      show ∃ event, (w.events.startScheduledClose (i .now) eventId operationId).2.get eventId =
        some event ∧ event.scheduledCloseOperationId = some operationId
      unfold Events.startScheduledClose at hanswer ⊢
      cases hget : w.events.get eventId with
      | none => simp [hget] at hanswer
      | some event =>
        simp only [hget] at hanswer ⊢
        split at hanswer
        · next hsame =>
          rw [if_pos hsame]
          exact ⟨event, hget, hsame⟩
        · next hother =>
          rw [if_neg hother]
          split at hanswer
          · cases hanswer
          · next hopen =>
            rw [if_neg hopen]
            exact ⟨_, @Events.get_modify _ _ _ (EventCall.amend (i .now) (.startScheduledClose eventId
              operationId)) (EventCall.eventId_amend _) hget, rfl⟩
    | _ => trivial
  | _ => trivial

theorem called (h : Truthful bot otherServices history w) {made : List ports.Entry}
    (hfinal : command.operation = .scheduledCloseFinalize →
      Done bot otherServices history command.eventId)
    (hmade : Made (queue bot otherServices) command history made)
    (hground : Grounded bot command made c)
    (harchive : ∀ eventId archivedAt, c = .events (.archive eventId archivedAt) →
      ArchivesInTime w eventId) :
    Truthful bot otherServices
      (.called (S := ports) command c w (c.perform i w).1 (c.perform i w).2 :: history)
      (c.perform i w).2 := by
  have hlater := List.suffix_cons
    (.called (S := ports) command c w (c.perform i w).1 (c.perform i w).2) history
  constructor
  · intro event' hevent' operationId hstarted
    obtain ⟨event, hevent, hid, -, hchange⟩ := closing_perform hevent'
    obtain ⟨command', c', before, answer, after, hrecord, seen, hseen, hseenStarted⟩ := hstarted
    rcases List.mem_cons.mp hrecord with hnew | hold
    · obtain ⟨-, -, -, -, rfl⟩ := Record.called.inj hnew
      have hsame : seen = event' := by
        rw [Events.get, Table.find?_key hevent'] at hseen
        exact (Option.some.inj hseen).symm
      exact hsame ▸ hseenStarted
    · have hbefore : event.scheduledCloseOperationId = some operationId :=
        h.started event hevent operationId
          ⟨command', c', before, answer, after, hold, seen, hid ▸ hseen, hseenStarted⟩
      cases hchange with
      | none hoperation => exact hoperation.trans hbefore
      | archive _ _ _ hoperation => exact hoperation.trans hbefore
      | start _ _ _ hnew =>
        rw [hnew] at hbefore
        cases hbefore
      | finish _ _ hstarted hoperation => rw [hoperation, ← hstarted, hbefore]
  · intro event' hevent' hcompleted
    obtain ⟨event, hevent, hid, -, hchange⟩ := closing_perform hevent'
    cases hchange with
    | none hoperation hsame =>
      rw [hoperation]
      exact h.completed event hevent (hsame ▸ hcompleted)
    | archive _ _ _ hoperation hsame =>
      rw [hoperation]
      exact h.completed event hevent (hsame ▸ hcompleted)
    | start _ _ _ _ hoperation =>
      rw [hoperation]
      rfl
    | finish _ _ _ hoperation =>
      rw [hoperation]
      rfl
  · intro event' hevent' operationId hstarted hmarks
    obtain ⟨event, hevent, hid, -, hchange⟩ := closing_perform hevent'
    rw [← hid]
    refine Entered.later ?_ hlater
    cases hchange with
    | none hoperation hcompleted harchived =>
      refine h.entered event hevent operationId (hoperation ▸ hstarted) ?_
      rw [hcompleted] at hmarks
      rcases harchived with hsame | hnone
      · rwa [hsame] at hmarks
      · rw [hnone] at hmarks
        exact .inr (hmarks.resolve_left (by simp))
    | archive archivedAt hc hopen hoperation =>
      rw [hoperation] at hstarted
      obtain ⟨last, hlast, hop, hlastId⟩ := harchive _ _ hc event (Table.find?_key hevent) hopen
        (by rw [hstarted]; rfl)
      exact h.entered_of_done hevent hstarted (hlastId ▸ h.published last hlast hop)
    | start _ _ hopen hnew _ hcompleted harchived =>
      -- a game whose close has just started is neither archived nor done
      rw [hcompleted, harchived, hopen] at hmarks
      have hbefore := h.completed event hevent (hmarks.resolve_left (by simp))
      rw [hnew] at hbefore
      cases hbefore
    | finish operationId' hc hbefore hoperation =>
      rw [hoperation] at hstarted
      obtain rfl := Option.some.inj hstarted
      have hstage : command.operation = .scheduledCloseFinalize ∧
          event.eventId = command.eventId := by
        rcases hc with rfl | rfl <;> exact hground
      exact h.entered_of_done hevent hbefore (hstage.2 ▸ hfinal hstage.1)
  · intro published hpublished hop
    rcases published_perform hpublished with hold | rfl
    · exact (h.published published hold hop).later hlater
    · rcases hground with hprofile | hstatistics | ⟨-, hid, hfinal⟩
      · rw [hop] at hprofile
        cases hprofile
      · rw [hop] at hstatistics
        cases hstatistics
      · rw [hid]
        exact (hfinal.done h.law hmade).later hlater
  · exact ⟨h.law_perform, h.law⟩

end Truthful

/-! ## Runs -/

/-- No call has met a game of this identifier. -/
def Unmet (history : Trail) (eventId : EventId) : Prop :=
  ∀ (command : OrderedRegistrationCommand) (c : Call) (before : World) (answer : c.Ans)
    (after : World), Record.called (S := ports) command c before answer after ∈ history →
      after.events.get eventId = none

/-- The marks of the close are the same. -/
structure SameClosing (event event' : Event) : Prop where
  id : event.eventId = event'.eventId
  schedule : event'.scheduledCloseAt = event.scheduledCloseAt
  operation : event'.scheduledCloseOperationId = event.scheduledCloseOperationId
  completed : event'.scheduledCloseCompletedAt = event.scheduledCloseCompletedAt
  archived : event'.archivedAt = event.archivedAt

/-- A game as it is created, under an identifier of its own. -/
structure IsNewGame (history : Trail) (event : Event) : Prop where
  unmet : Unmet history event.eventId
  operation : event.scheduledCloseOperationId = none
  completed : event.scheduledCloseCompletedAt = none
  archived : event.archivedAt = none

/-- What the rest of the bot does to the closes: the gateway sets, moves and clears their schedule,
and games are created. -/
inductive AroundClosings (history : Trail) (w w' : World) : Prop
  | rest (hpublished : ∀ command ∈ w'.published, command.operation = .scheduledCloseFinalize →
        command ∈ w.published)
      (hevents : ∀ event' ∈ w'.events.rows,
        (∃ event ∈ w.events.rows, SameClosing event event') ∨ IsNewGame history event')
  | reschedule (eventId : EventId) (closesAt : Option Time) (now : Time)
      (hpublished : w'.published = w.published)
      (hevents : w'.events = (w.events.setScheduledCloseAt now eventId closesAt).2)

namespace Truthful

theorem around {w' : World} (h : Truthful bot otherServices history w)
    (haround : AroundClosings history w w') : Truthful bot otherServices history w' := by
  cases haround with
  | rest hpublished hevents =>
    refine ⟨?_, ?_, ?_, fun command hc hop => h.published command (hpublished command hc hop) hop,
      h.law⟩
    · intro event' hevent' operationId hstarted
      rcases hevents event' hevent' with ⟨event, hevent, hsame⟩ | hnew
      · rw [hsame.operation]
        exact h.started event hevent operationId (hsame.id ▸ hstarted)
      · obtain ⟨command, c, before, answer, after, hrecord, seen, hseen, -⟩ := hstarted
        rw [hnew.unmet command c before answer after hrecord] at hseen
        exact nomatch hseen
    · intro event' hevent' hcompleted
      rcases hevents event' hevent' with ⟨event, hevent, hsame⟩ | hnew
      · rw [hsame.operation]
        exact h.completed event hevent (hsame.completed ▸ hcompleted)
      · rw [hnew.completed] at hcompleted
        exact nomatch hcompleted
    · intro event' hevent' operationId hstarted hmarks
      rcases hevents event' hevent' with ⟨event, hevent, hsame⟩ | hnew
      · rw [hsame.archived, hsame.completed] at hmarks
        exact hsame.id ▸ h.entered event hevent operationId (hsame.operation ▸ hstarted) hmarks
      · rw [hnew.operation] at hstarted
        exact nomatch hstarted
  | reschedule eventId closesAt now hpublished hevents =>
    -- the schedule of a close that is under way is not moved
    have hkept : ∀ event' ∈ w'.events.rows, event' ∈ w.events.rows ∨
        ∃ event ∈ w.events.rows, event.eventId = event'.eventId ∧
          event.scheduledCloseOperationId = none ∧ event'.scheduledCloseOperationId = none ∧
          event'.scheduledCloseCompletedAt = none := by
      intro event' hevent'
      rw [hevents] at hevent'
      rcases EventCall.amended_when hevent' with hold | ⟨event, hevent, -, htest, rfl⟩
      · exact .inl hold
      · have hnone : event.scheduledCloseOperationId = none := by
          simp only [Bool.and_eq_true, Option.isNone_iff_eq_none] at htest
          exact htest.1
        exact .inr ⟨event, hevent, rfl, hnone, hnone, rfl⟩
    refine ⟨?_, ?_, ?_, by rw [hpublished]; exact h.published, h.law⟩
    · intro event' hevent' operationId hstarted
      rcases hkept event' hevent' with hold | ⟨event, hevent, hid, hnone, -, -⟩
      · exact h.started event' hold operationId hstarted
      · have hbefore := h.started event hevent operationId (hid ▸ hstarted)
        rw [hnone] at hbefore
        exact nomatch hbefore
    · intro event' hevent' hcompleted
      rcases hkept event' hevent' with hold | ⟨event, hevent, hid, -, -, hnone⟩
      · exact h.completed event' hold hcompleted
      · rw [hnone] at hcompleted
        exact nomatch hcompleted
    · intro event' hevent' operationId hstarted hmarks
      rcases hkept event' hevent' with hold | ⟨event, hevent, hid, -, hnone, -⟩
      · exact h.entered event' hold operationId hstarted hmarks
      · rw [hnone] at hstarted
        exact nomatch hstarted

theorem finished (h : Truthful bot otherServices history w) (value : Reply) :
    Truthful bot otherServices (.finished command value :: history) w := by
  have hlater := List.suffix_cons
    (Record.finished (S := ports) (W := World) command value) history
  refine ⟨?_, h.completed, ?_, ?_, trivial, h.law⟩
  · rintro event hevent operationId ⟨command', c, before, answer, after, hrecord, hseen⟩
    rcases List.mem_cons.mp hrecord with hnew | hold
    · exact nomatch hnew
    · exact h.started event hevent operationId ⟨command', c, before, answer, after, hold, hseen⟩
  · intro event hevent operationId hstarted hmarks
    exact (h.entered event hevent operationId hstarted hmarks).later hlater
  · intro published hpublished hop
    exact (h.published published hpublished hop).later hlater

end Truthful

/-- No close is under way, and none is about to be finished. -/
structure Unstarted (w : World) : Prop where
  operation : ∀ event ∈ w.events.rows, event.scheduledCloseOperationId = none
  completed : ∀ event ∈ w.events.rows, event.scheduledCloseCompletedAt = none
  published : ∀ command ∈ w.published, command.operation ≠ .scheduledCloseFinalize

theorem Unstarted.truthful (h : Unstarted w) : Truthful bot otherServices [] w where
  started := by
    rintro event hevent operationId ⟨command, c, before, answer, after, hrecord, -⟩
    exact absurd hrecord List.not_mem_nil
  completed := by
    intro event hevent hcompleted
    rw [h.completed event hevent] at hcompleted
    exact nomatch hcompleted
  entered := by
    intro event hevent operationId hstarted
    rw [h.operation event hevent] at hstarted
    exact nomatch hstarted
  published := fun command hc hop => absurd hop (h.published command hc)
  law := trivial

/-- Any step: a last stage is queued only where a stage before it has published it, and the rest of
the bot leaves the marks of the closes alone. -/
def ClosingStep (s : Plant) : Move → Prop
  | .publish command => command.operation = .scheduledCloseFinalize → command ∈ s.world.published
  | .outside world => AroundClosings s.history s.world world
  | _ => True

/-- The step archives no game between the start of its close and the end of its statistics. -/
def ArchivesNone (s : Plant) : Move → Prop
  | .call lane _ => ∀ command eventId archivedAt,
      s.Calls lane command (.events (.archive eventId archivedAt)) → ArchivesInTime s.world eventId
  | _ => True

theorem truthful_reached {tables : OtherServices} {s₀ s : Plant}
    (hs : Fleet.Reaches (queue bot (services bot tables)) storage
      (fun s l => ClosingStep s l ∧ ArchivesNone s l) s₀ s)
    (htables : ∀ command, spares (fun _ => True) (tables command)) (hidle : s₀.Idle)
    (hnew : s₀.history = []) (hunstarted : Unstarted s₀.world) :
    Truthful bot (services bot tables) s.history s.world := by
  refine (hs.trace_rule (A := Plausible (anyWorkbook : Legal)) (T := Grounded bot)
    (X := fun _ _ _ => True) (Q := fun _ _ _ => True)
    (K := fun history command => command.operation = .scheduledCloseFinalize →
      Done bot (services bot tables) history command.eventId)
    (Truthful bot (services bot tables)) hidle ?_ ?_ ?_ ?_ ?_ ?_ ?_ ?_).1
  · rw [hnew]
    exact hunstarted.truthful
  · exact fun command => grounded_process htables
  · exact fun history record command hK hop => (hK hop).later (List.suffix_cons _ _)
  · intro s command hC hinv hop
    exact hinv.published command (hC.1 hop) hop
  · exact fun s w hC hinv => hinv.around hC.1
  · exact fun s lane i c _ _ => plausible_perform (respects_anyWorkbook i) fun _ _ => trivial
  · intro s lane i command c made hC hcalls hK hmade hground hinv
    refine hinv.called hK hmade hground ?_
    rintro eventId archivedAt rfl
    exact hC.2 command eventId archivedAt hcalls
  · exact fun s lane command value made _ _ _ _ _ hinv => hinv.finished value

/-- In every run in which no game is archived between the start of its automatic close and the end of
its statistics, a close that is marked as completed has been entered in the statistics by an attempt
under its operation. -/
theorem completed_close_entered {tables : OtherServices} {s₀ s : Plant}
    (hs : Fleet.Reaches (queue bot (services bot tables)) storage
      (fun s l => ClosingStep s l ∧ ArchivesNone s l) s₀ s)
    (htables : ∀ command, spares (fun _ => True) (tables command)) (hidle : s₀.Idle)
    (hnew : s₀.history = []) (hunstarted : Unstarted s₀.world) {event : Event}
    (hevent : s.world.events.get eventId = some event)
    (hcompleted : event.scheduledCloseCompletedAt.isSome) :
    ∃ operationId, event.scheduledCloseOperationId = some operationId ∧
      Entered bot (services bot tables) s.history eventId operationId := by
  have htruthful := truthful_reached hs htables hidle hnew hunstarted
  have hmem := Table.mem_of_find? hevent
  obtain ⟨operationId, hstarted⟩ :=
    Option.isSome_iff_exists.mp (htruthful.completed event hmem hcompleted)
  obtain rfl := Events.eventId_of_get hevent
  exact ⟨operationId, hstarted,
    htruthful.entered event hmem operationId hstarted (.inr hcompleted)⟩

end Histories

/-! ## A game that closes by itself -/

section Samples

/-- A game with a schedule and one master. -/
def closingWorld : World where
  users := ⟨[samplePlayer 1], by decide⟩
  events := ⟨[{ eventId := "game", name := "Игра", scheduledCloseAt := some 0 }], by decide⟩
  leaders := ⟨[("game", ⟨.telegram, 1⟩)], game_led⟩

def closingPlant : Plant where
  world := closingWorld

abbrev closingQueue : Jobs ports Failure Reply OrderedRegistrationCommand String :=
  queue sampleBot (services sampleBot noServices)

/-- The operation of the close of the game. -/
def sampleClose : OperationId :=
  closingOperationId sampleBot "game" 0

def sampleStage : ClosingStage → OrderedRegistrationCommand
  | .close => closingCommand "game" sampleClose .close
  | .statistics =>
    closingCommand "game" (stageOperationId sampleBot sampleClose "statistics") .statistics
  | .finalize => closingCommand "game" (stageOperationId sampleBot sampleClose "finalize") .finalize

def sampleArchive : OrderedRegistrationCommand where
  operationId := "archive"
  eventId := "game"
  operation := .archiveEvent
  platform := .telegram
  platformUserId := 1

/-- One stage is queued and attempted to its end. -/
def stageMoves (command : OrderedRegistrationCommand) (now : Time) : List Move :=
  .publish command :: Fleet.attempt command.queueGroupId 40 (goodDay now)
    (.finish command.queueGroupId)

/-- The step passes the two conditions, as far as it can be read off a plant. -/
def closesInOrder (archives : Bool) (s : Plant) : Move → Bool
  | .publish command =>
    command.operation ≠ .scheduledCloseFinalize || s.world.published.contains command
  | .outside _ => false
  | .call lane _ => match s.pending lane with
    | some (_, .events (.archive eventId _)) => archives || (s.world.events.get eventId).all fun event =>
        event.archivedAt.isSome || event.scheduledCloseOperationId.isNone ||
          s.world.published.any fun command =>
            command.operation = .scheduledCloseFinalize && command.eventId = eventId
    | _ => true
  | _ => true

theorem closingStep_of_check {archives : Bool} {s : Plant} {l : Move}
    (h : closesInOrder archives s l = true) :
    ClosingStep s l := by
  cases l with
  | publish command =>
    intro hop
    simpa [closesInOrder, hop] using h
  | outside world => exact nomatch h
  | _ => trivial

theorem archivesNone_of_check {s : Plant} {l : Move} (h : closesInOrder false s l = true) :
    ArchivesNone s l := by
  cases l with
  | call lane i =>
    intro command eventId archivedAt hcalls event hget hopen hstarted
    rw [closesInOrder, hcalls.pending] at h
    simp only [hget, hopen, Option.all_some, Bool.false_or, Option.isSome_none,
      Option.isNone_eq_false_iff.mpr hstarted, List.any_eq_true, Bool.and_eq_true,
      decide_eq_true_eq] at h
    exact h
  | _ => trivial

/-- The three stages, one after another. -/
def completedPlant : Plant :=
  closingPlant.play closingQueue storage
    (stageMoves (sampleStage .close) 1 ++ stageMoves (sampleStage .statistics) 2 ++
      stageMoves (sampleStage .finalize) 3)

theorem closingWorld_unstarted : Unstarted closingWorld := by
  constructor
  · decide
  · decide
  · exact fun command hc => absurd hc List.not_mem_nil

theorem completedPlant_reached : Fleet.Reaches closingQueue storage
    (fun s l => ClosingStep s l ∧ ArchivesNone s l) closingPlant completedPlant := by
  have hcheck : Fleet.Meets closingQueue storage (fun s l => closesInOrder false s l = true)
      closingPlant (stageMoves (sampleStage .close) 1 ++ stageMoves (sampleStage .statistics) 2 ++
        stageMoves (sampleStage .finalize) 3) := by
    decide +kernel
  exact (Fleet.Reaches.refl.play_meets hcheck).mono fun s l h =>
    ⟨closingStep_of_check h, archivesNone_of_check h⟩

theorem completedPlant_entered : ∃ event operationId,
    completedPlant.world.events.get "game" = some event ∧
      event.scheduledCloseOperationId = some operationId ∧
      Entered sampleBot (services sampleBot noServices) completedPlant.history "game"
        operationId := by
  have hstored : (completedPlant.world.events.get "game").isSome := by decide +kernel
  have hcompleted : (completedPlant.world.events.get "game").any
      (·.scheduledCloseCompletedAt.isSome) = true := by decide +kernel
  have hreached := completedPlant_reached
  generalize completedPlant = s at hstored hcompleted hreached ⊢
  obtain ⟨event, hevent⟩ := Option.isSome_iff_exists.mp hstored
  rw [hevent, Option.any_some] at hcompleted
  obtain ⟨operationId, hstarted, hentered⟩ := completed_close_entered hreached (fun _ => trivial)
    (fun _ => rfl) rfl closingWorld_unstarted hevent hcompleted
  exact ⟨event, operationId, hevent, hstarted, hentered⟩

/-- A master archives the game while its statistics wait. -/
def archivedPlant : Plant :=
  closingPlant.play closingQueue storage
    (stageMoves (sampleStage .close) 1 ++ stageMoves sampleArchive 2 ++
      stageMoves (sampleStage .statistics) 3 ++ stageMoves (sampleStage .finalize) 4)

theorem archivedPlant_reached :
    Fleet.Reaches closingQueue storage ClosingStep closingPlant archivedPlant := by
  have hcheck : Fleet.Meets closingQueue storage (fun s l => closesInOrder true s l = true)
      closingPlant (stageMoves (sampleStage .close) 1 ++ stageMoves sampleArchive 2 ++
        stageMoves (sampleStage .statistics) 3 ++ stageMoves (sampleStage .finalize) 4) := by
    decide +kernel
  exact (Fleet.Reaches.refl.play_meets hcheck).mono fun s l h => closingStep_of_check h

/-- A record of the call that uploads the masters' workbook. -/
def commitsMasters : Record ports Reply OrderedRegistrationCommand World → Bool
  | .called _ (.outside (.commitStatistics .masters _)) _ _ _ => true
  | _ => false

/-- Entering a game in the statistics uploads the masters' workbook. -/
theorem commits_of_completes {bot : Deployment} {eventId : EventId} {operationId : OperationId}
    {calls : List ports.Entry} {text : String}
    (h : (addGame bot eventId operationId).Completes calls text) :
    ∃ changed answer, (⟨.outside (.commitStatistics .masters changed), answer⟩ : ports.Entry) ∈
      calls := by
  suffices ∃ changed answer, (⟨.outside (.commitStatistics .masters changed), answer⟩ :
      ports.Entry) ∈ calls.reverse ++ [] by simpa using this
  refine h.traced (T := fun _ _ => True) (X := fun _ _ => True) (Q := fun made _ =>
    ∃ changed answer, (⟨.outside (.commitStatistics .masters changed), answer⟩ : ports.Entry) ∈
      made) ?_
  refine ⟨trivial, fun stored _ => ?_⟩
  cases stored with
  | none => trivial
  | some event =>
    refine (Prog.traced_suffix (rejectIf _ _) _).bind fun made _ _ => ?_
    refine (Prog.traced_suffix (ensureMigrated bot event) _).bind fun made _ _ => ?_
    refine ⟨trivial, fun rows _ => ⟨trivial, fun leaders _ => ⟨trivial, fun profiles _ => ?_⟩⟩⟩
    refine (Prog.traced_suffix (attendance event operationId rows leaders profiles) _).bind
      fun made names _ => ?_
    refine ⟨trivial, fun now _ => ⟨trivial, fun answer _ => ?_⟩⟩
    refine (Prog.traced_suffix (answered answer) _).bind fun made playerEdit _ => ?_
    refine ⟨trivial, fun answer _ => ?_⟩
    refine (Prog.traced_suffix (answered answer) _).bind fun made masterEdit _ => ?_
    refine ⟨trivial, fun answer _ => ?_⟩
    refine (Prog.traced_suffix (answered answer) _).bind fun made playerChanged _ => ?_
    -- the upload of the second workbook, which everything after it keeps among the calls made
    refine ⟨trivial, fun answer _ => ?_⟩
    refine (Prog.traced_suffix (answered answer) _).bind fun made' masterChanged hmade => ?_
    refine (Prog.traced_suffix (grantExperience bot event.eventId _ operationId) _).bind
      fun made'' _ hmade' => ?_
    have hcommit := (hmade.trans hmade').subset List.mem_cons_self
    split <;> exact ⟨masterEdit, answer, hcommit⟩

/-- The close is marked as completed though its statistics were skipped, and the master is told that
the game is in them. -/
theorem archivedPlant_completed : ∃ s₀ s : Plant,
    Fleet.Reaches closingQueue storage ClosingStep s₀ s ∧ s₀.Idle ∧ s₀.history = [] ∧
    Unstarted s₀.world ∧ ∃ event operationId, s.world.events.get "game" = some event ∧
      event.scheduledCloseCompletedAt.isSome ∧
      event.scheduledCloseOperationId = some operationId ∧
      ¬ Entered sampleBot (services sampleBot noServices) s.history "game" operationId := by
  have hcompleted : (archivedPlant.world.events.get "game").any (fun event =>
      event.scheduledCloseCompletedAt.isSome &&
        event.scheduledCloseOperationId = some sampleClose) = true := by
    decide +kernel
  have hstored : (archivedPlant.world.events.get "game").isSome := by decide +kernel
  have hnone : archivedPlant.history.any commitsMasters = false := by decide +kernel
  have hreached := archivedPlant_reached
  generalize archivedPlant = s at hcompleted hstored hnone hreached
  obtain ⟨event, hevent⟩ := Option.isSome_iff_exists.mp hstored
  rw [hevent, Option.any_some, Bool.and_eq_true, decide_eq_true_eq] at hcompleted
  refine ⟨closingPlant, s, hreached, fun _ => rfl, rfl, closingWorld_unstarted, event, sampleClose,
    hevent, hcompleted.1, hcompleted.2, ?_⟩
  rintro ⟨command, -, -, -, earlier, calls, text, hsuffix, hcalls, hmade⟩
  obtain ⟨changed, answer, hmem⟩ := commits_of_completes hcalls
  obtain ⟨before, after, hrecord⟩ := hmade.mem (List.mem_reverse.mpr hmem)
  have hcommits := List.any_eq_false.mp hnone _ (hsuffix.subset hrecord)
  exact hcommits rfl

example : closingText { eventId := "game", name := "Игра" } ∈
    archivedPlant.world.sent.map Delivery.text := by
  decide +kernel

end Samples

end LarpBot
