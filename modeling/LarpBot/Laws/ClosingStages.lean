import LarpBot.Laws.StatisticsConduct

/-!
# The stages of an automatic close

What each stage may do, and on what ground: a close is started under the schedule that was read
right before, the last stage is published where the statistics are done or the game was found
archived, and it is the last stage alone that archives the game and completes the close. The ground
of a call is an earlier call of the same attempt, so the stages are read as traces. Everything else
that the worker does leaves the closes alone (`Call.SparesClosings`).
-/

namespace LarpBot

open Atomic Act
open Prog (Makes Traced)

variable (bot : Deployment)

/-! ## The rest of the worker -/

/-- The calls that leave the automatic closes alone. What they publish are profile projections. -/
def Call.SparesClosings (c : Call) : Prop :=
  match c with
  | .events (.startScheduledClose _ _) | .events (.completeScheduledCloseActions _ _)
  | .events (.markScheduledCloseNotificationDelivered _ _ _)
  | .events (.completeScheduledCloseNotifications _ _) => False
  | .outside (.publish command) => command.operation = .updateProfile
  | _ => True

abbrev spares {α : Type} (Q : α → Prop) (p : Act α) : Prop :=
  makes anyWorkbook Call.SparesClosings Q p

variable {α : Type} {Q : α → Prop} {p : Act α} {command : OrderedRegistrationCommand} {c : Call}

theorem OrderedRegistrationCommand.MayCall.sparesClosings (hc : command.MayCall anyWorkbook c) :
    c.SparesClosings := by
  cases c with
  | events c => cases c <;> trivial
  | outside c => cases c <;> trivial
  | _ => trivial

theorem Call.IsQuiet.sparesClosings (hc : c.IsQuiet) : c.SparesClosings := by
  cases c with
  | events c => cases c <;> trivial
  | outside c => cases c <;> trivial
  | _ => trivial

theorem Call.IsNotice.sparesClosings (hc : c.IsNotice anyWorkbook command.operationId) :
    c.SparesClosings :=
  hc.mayCall.sparesClosings

theorem spares_of_quiet (hp : quiet Q p) : spares Q p :=
  makes_mono hp fun _ => Call.IsQuiet.sparesClosings

/-! ## The stages -/

/-- The read of the game of a command. -/
abbrev readsGame (command : OrderedRegistrationCommand) (event : Event) : ports.Entry :=
  ⟨.events (.get command.eventId), some event⟩

/-- Why an attempt may publish the last stage of a close. -/
inductive FinalGround (command : OrderedRegistrationCommand) (made : List ports.Entry) : Prop
  /-- The game was found archived, with a close under way. -/
  | archived (event : Event) (hread : readsGame command event ∈ made)
      (harchived : event.archivedAt.isSome) (hstarted : event.scheduledCloseOperationId.isSome)
  /-- The game was found archived right after its close was started. -/
  | restarted (event : Event) (operationId : OperationId) (rest : List ports.Entry)
      (hmade : made = readsGame command event ::
        ⟨.events (.startScheduledClose command.eventId operationId), true⟩ :: rest)
      (harchived : event.archivedAt.isSome)
  /-- The game has been entered in the statistics. -/
  | entered (event : Event) (operationId : OperationId) (calls rest : List ports.Entry)
      (text : String) (hread : readsGame command event ∈ rest)
      (hstarted : event.scheduledCloseOperationId = some operationId)
      (hstage : command.operation = .scheduledCloseStatistics)
      (hid : command.operationId = stageOperationId bot operationId "statistics")
      (hcalls : (addGame bot command.eventId command.operationId).Completes calls text)
      (hmade : made = calls.reverse ++ rest)

/-- What an attempt must have done before it makes a call. -/
def Grounded (command : OrderedRegistrationCommand) (made : List ports.Entry) (c : Call) : Prop :=
  match c with
  | .events (.startScheduledClose e op) =>
    command.operation = .scheduledCloseEvent ∧ e = command.eventId ∧ op = command.operationId ∧
      ∃ event closesAt rest, made = readsGame command event :: rest ∧
        event.scheduledCloseAt = some closesAt ∧ op = closingOperationId bot e closesAt
  | .events (.completeScheduledCloseActions e _)
  | .events (.markScheduledCloseNotificationDelivered e _ _)
  | .events (.completeScheduledCloseNotifications e _) =>
    command.operation = .scheduledCloseFinalize ∧ e = command.eventId
  | .outside (.publish next) =>
    next.operation = .updateProfile ∨ next.operation = .scheduledCloseStatistics ∨
      next.operation = .scheduledCloseFinalize ∧ next.eventId = command.eventId ∧
        FinalGround bot command made
  | _ => True

/-- A program whose calls are grounded for a command. -/
abbrev grounded {α : Type} (command : OrderedRegistrationCommand)
    (Q : List ports.Entry → α → Prop) (p : Act α) (made : List ports.Entry) : Prop :=
  p.Traced (Plausible (anyWorkbook : Legal)) (Grounded bot command) (fun _ _ => True) Q made

theorem Call.SparesClosings.grounded {made : List ports.Entry} (hc : c.SparesClosings) :
    Grounded bot command made c := by
  cases c with
  | events c => cases c <;> trivial
  | outside c =>
    cases c with
    | publish next => exact .inl hc
    | _ => trivial
  | _ => trivial

variable {bot} {made : List ports.Entry}

/-- What leaves the closes alone needs no ground. -/
theorem grounded_of_spares (hp : spares Q p) :
    grounded bot command (fun made' a => made <:+ made' ∧ Q a) p made :=
  (hp.traced made).mono (fun _ _ hc => hc.2.grounded bot) (fun _ _ _ => trivial) fun _ _ h => h

/-- A call and what follows it. -/
theorem traced_call {β : Type} {T : List ports.Entry → Call → Prop} {c : Call} {f : c.Ans → Act β}
    {R : List ports.Entry → β → Prop} (hc : T made c)
    (hf : ∀ a, Plausible (anyWorkbook : Legal) c a →
      (f a).Traced (Plausible (anyWorkbook : Legal)) T (fun _ _ => True) R (⟨c, a⟩ :: made)) :
    (one c >>= f).Traced (Plausible (anyWorkbook : Legal)) T (fun _ _ => True) R made :=
  ⟨hc, hf⟩

/-- The game that a stage has read, with the operation of its close. -/
structure ReadClosing (bot : Deployment) (command : OrderedRegistrationCommand)
    (made : List ports.Entry) (event : Event) (operationId : OperationId) : Prop where
  read : made = [readsGame command event]
  id : event.eventId = command.eventId
  schedule : ∃ closesAt, event.scheduledCloseAt = some closesAt ∧
    operationId = closingOperationId bot command.eventId closesAt
  expected : expectedId bot operationId command.operation = some command.operationId

/-- Whatever is asked of the calls of a stage, the read of its game comes first. -/
theorem traced_closingEvent {T : List ports.Entry → Call → Prop}
    (hget : T [] (.events (.get command.eventId))) :
    (closingEvent bot command).Traced (Plausible (anyWorkbook : Legal)) T (fun _ _ => True)
      (fun made closing => ReadClosing bot command made closing.1 closing.2) [] := by
  refine traced_call hget fun answer hanswer => ?_
  cases answer with
  | none => trivial
  | some event =>
    have hid : event.eventId = command.eventId := (hanswer event rfl).1
    dsimp only
    split
    · trivial
    · next closesAt hcloses =>
      split
      · trivial
      · next hexpected =>
        refine ⟨rfl, hid, ⟨closesAt, hcloses, by rw [hid]⟩, ?_⟩
        exact not_not.mp hexpected

theorem grounded_closingEvent :
    grounded bot command (fun made closing => ReadClosing bot command made closing.1 closing.2)
      (closingEvent bot command) [] :=
  traced_closingEvent trivial

theorem grounded_scheduleNext {event : Event} {operationId : OperationId} {stage : ClosingStage}
    (hid : event.eventId = command.eventId)
    (hstage : stage = .statistics ∨ stage = .finalize ∧ FinalGround bot command made) :
    grounded bot command (fun _ _ => True) (scheduleNext bot event.eventId operationId stage)
      made := by
  have hpublish : Grounded bot command made (.outside (.publish
      (closingCommand event.eventId (stageOperationId bot operationId
        (if stage = .statistics then "statistics" else "finalize")) stage))) := by
    rcases hstage with rfl | ⟨rfl, hground⟩
    · exact .inr (.inl rfl)
    · exact .inr (.inr ⟨rfl, hid, hground⟩)
  refine ⟨hpublish, fun answer _ => ?_⟩
  cases answer <;> trivial

theorem grounded_scheduleAfterStart {event : Event} {operationId : OperationId}
    (hid : event.eventId = command.eventId)
    (hground : event.archivedAt.isSome → FinalGround bot command made) :
    grounded bot command (fun _ _ => True) (scheduleAfterStart bot event operationId) made := by
  refine (grounded_scheduleNext hid ?_).bind fun _ _ _ => trivial
  split
  · next harchived => exact .inr ⟨rfl, hground harchived⟩
  · exact .inl rfl

theorem grounded_startClosing (hop : command.operation = .scheduledCloseEvent) :
    grounded bot command (fun _ _ => True) (startClosing bot command) [] := by
  refine grounded_closingEvent.bind fun made closing hclosing => ?_
  obtain ⟨event, operationId⟩ := closing
  obtain ⟨rfl, hid, ⟨closesAt, hcloses, hoperation⟩, hexpected⟩ := hclosing
  have hcommand : operationId = command.operationId := by
    rw [hop] at hexpected
    exact Option.some.inj hexpected
  dsimp only at hid hcloses ⊢
  split
  · trivial
  · split
    · next started hstarted =>
      split
      · trivial
      · refine grounded_scheduleAfterStart hid fun harchived => ?_
        exact .archived event List.mem_cons_self harchived (by rw [hstarted]; rfl)
    · split
      · trivial
      · refine ⟨⟨hop, hid, hcommand, event, closesAt, [], rfl, hcloses, by rw [hid]; exact hoperation⟩,
          fun started _ => ?_⟩
        cases started with
        | false => trivial
        | true =>
          refine ⟨trivial, fun answer hanswer => ?_⟩
          cases answer with
          | none => trivial
          | some refreshed =>
            have hsame : refreshed.eventId = command.eventId := (hanswer refreshed rfl).1.trans hid
            refine grounded_scheduleAfterStart hsame fun harchived => ?_
            exact .restarted refreshed operationId [readsGame command event] (by rw [hid]) harchived

theorem grounded_addStatistics (hop : command.operation = .scheduledCloseStatistics) :
    grounded bot command (fun _ _ => True) (addStatistics bot command) [] := by
  refine grounded_closingEvent.bind fun made closing hclosing => ?_
  obtain ⟨event, operationId⟩ := closing
  obtain ⟨rfl, hid, -, hexpected⟩ := hclosing
  have hcommand : command.operationId = stageOperationId bot operationId "statistics" := by
    rw [hop] at hexpected
    exact (Option.some.inj hexpected).symm
  dsimp only at hid ⊢
  split
  · trivial
  · split
    · trivial
    · next hstarted =>
      have hstarted : event.scheduledCloseOperationId = some operationId := not_not.mp hstarted
      have hground : grounded bot command (fun made _ => FinalGround bot command made)
          (whenever event.archivedAt.isNone do
            let _ ← addGame bot event.eventId command.operationId)
          [readsGame command event] := by
        cases harchived : event.archivedAt with
        | some archivedAt =>
          exact .archived event List.mem_cons_self (by rw [harchived]; rfl) (by rw [hstarted]; rfl)
        | none =>
          have hcalls : grounded bot command (fun made' text =>
              [readsGame command event] <:+ made' ∧ True)
              (addGame bot event.eventId command.operationId) [readsGame command event] :=
            grounded_of_spares (spares_of_quiet (quiet_addGame bot event.eventId command.operationId))
          have hcompletes := hcalls.and ((addGame bot event.eventId command.operationId).traced_completes
            [readsGame command event])
          refine (hcompletes.mono (fun _ _ h => h.1) (fun _ _ h => h.1) fun _ _ h => h.2).bind ?_
          rintro made text ⟨calls, rfl, hcompletes⟩
          rw [hid] at hcompletes
          exact .entered event operationId calls _ text List.mem_cons_self hstarted hop hcommand
            hcompletes rfl
      refine hground.bind fun made _ hfinal => ?_
      exact (grounded_scheduleNext hid (.inr ⟨rfl, hfinal⟩)).bind fun _ _ _ => trivial

theorem grounded_notifyClosed (hop : command.operation = .scheduledCloseFinalize) {event : Event}
    (hid : event.eventId = command.eventId) (operationId : OperationId)
    (leaders : List BotIdentity) (notified : List String) :
    grounded bot command (fun _ _ => True) (notifyClosed event operationId notified leaders) made := by
  induction leaders generalizing notified made with
  | nil => trivial
  | cons leader rest ih =>
    unfold notifyClosed
    dsimp only
    split
    · exact ih notified
    · have hdeliver : spares (fun _ => True) (deliver leader.platform leader.platformUserId
          s!"{operationId}:{closingRecipient leader}" (closingText event) [mainMenuButton]) := by
        have hnotice : makes anyWorkbook (Call.IsNotice anyWorkbook command.operationId)
            (fun _ => True) (deliver leader.platform leader.platformUserId
              s!"{operationId}:{closingRecipient leader}" (closingText event) [mainMenuButton]) :=
          notice_deliver _ _ _ _ _
        exact makes_mono hnotice fun _ => Call.IsNotice.sparesClosings
      refine (grounded_of_spares hdeliver).bind fun _ _ _ => ⟨⟨hop, hid⟩, fun answer _ => ?_⟩
      cases answer with
      | error fault => trivial
      | ok _ => exact ih _

theorem grounded_finalizeClosing (hop : command.operation = .scheduledCloseFinalize) :
    grounded bot command (fun _ _ => True) (finalizeClosing bot command) [] := by
  refine grounded_closingEvent.bind fun made closing hclosing => ?_
  obtain ⟨event, operationId⟩ := closing
  obtain ⟨-, hid, -, -⟩ := hclosing
  dsimp only at hid ⊢
  split
  · trivial
  · split
    · trivial
    · refine ⟨⟨hop, hid⟩, fun completed _ => ?_⟩
      cases completed with
      | false => trivial
      | true =>
        refine ⟨trivial, fun answer hanswer => ?_⟩
        cases answer with
        | none => trivial
        | some refreshed =>
          have hsame : refreshed.eventId = command.eventId := (hanswer refreshed rfl).1.trans hid
          refine (grounded_of_spares (spares_of_quiet (quiet_refreshDailyPassTable bot _))).bind fun _ _ _ => ?_
          refine ⟨trivial, fun leaders _ => ?_⟩
          refine (grounded_notifyClosed hop hsame operationId leaders _).bind fun _ _ _ => ?_
          refine ⟨⟨hop, hsame⟩, fun answer _ => ?_⟩
          cases answer <;> trivial

/-- Every call of an attempt has its ground. -/
theorem grounded_process {tables : OtherServices}
    (htables : ∀ command, spares (fun _ => True) (tables command)) :
    grounded bot command (fun _ _ => True) (process bot (services bot tables) command) [] := by
  have hanswer : ∀ c a, Plausible (anyWorkbook : Legal) c a → Plausible (anyWorkbook : Legal) c a :=
    fun _ _ h => h
  refine traced_process bot hanswer ?_ fun _ _ hc => hc.sparesClosings.grounded bot
  unfold mutate
  split
  · refine Traced.bind (Q := fun _ _ => True) ?_ fun _ _ _ => trivial
    unfold services
    split
    · next hop => exact (grounded_startClosing hop).bind fun _ _ _ => trivial
    · next hop => exact (grounded_addStatistics hop).bind fun _ _ _ => trivial
    · next hop => exact (grounded_finalizeClosing hop).bind fun _ _ _ => trivial
    · exact (grounded_of_spares (spares_of_quiet (quiet_applyStatistics bot))).bind fun _ _ _ => trivial
    · exact (grounded_of_spares (spares_of_quiet (quiet_syncProfile bot))).bind fun _ _ _ => trivial
    · exact (grounded_of_spares (htables command)).mono (fun _ _ h => h) (fun _ _ h => h)
        fun _ _ _ => trivial
  · have happly : spares (fun _ => True) (apply bot command) :=
      makes_mono (writes_apply bot) fun _ => OrderedRegistrationCommand.MayCall.sparesClosings
    exact (grounded_of_spares happly).mono (fun _ _ h => h) (fun _ _ h => h) fun _ _ _ => trivial

end LarpBot
