import LarpBot.Laws.Closings
import LarpBot.Laws.StatisticsFailures

/-!
# A close that stops at the statistics

The worker takes a domain error for the answer to the author of the command, and the author of the
stages of an automatic close is the system, which is sent nothing. So the second stage of a close
must not raise one: what it enters must be accepted, and the others must leave the game alone while
it is at work. Where they do, the stage is deleted only after it has queued the last one.
-/

namespace LarpBot

open Atomic Act

section Stage

variable (bot : Deployment) (eventId : EventId) (closesAt : Time)

/-- The command is the second stage of the close of a game under a schedule. -/
structure IsSecondStage (command : OrderedRegistrationCommand) : Prop where
  operation : command.operation = .scheduledCloseStatistics
  game : command.eventId = eventId
  id : command.operationId =
    stageOperationId bot (closingOperationId bot eventId closesAt) "statistics"

/-- The third stage of the close. -/
def lastStage : OrderedRegistrationCommand :=
  closingCommand eventId
    (stageOperationId bot (closingOperationId bot eventId closesAt) "finalize") .finalize

/-- The game is stored, and its close has started under its schedule. -/
def UnderWay (w : World) : Prop :=
  ∃ event, w.events.get eventId = some event ∧ event.scheduledCloseAt = some closesAt ∧
    event.scheduledCloseOperationId = some (closingOperationId bot eventId closesAt)

/-- The close has gone on to its last stage, or it is completed. -/
def GoneOn (w : World) : Prop :=
  lastStage bot eventId closesAt ∈ w.published ∨
    w.events.Has eventId (·.scheduledCloseCompletedAt.isSome)

/-- What surrounds the second stage where it does its work. -/
def around (plays : Nat → Prop) : Surround World Input where
  moves w w' := Leaves eventId w w' ∧ Enterable plays eventId w' ∧ UnderWay bot eventId closesAt w'
  admits := Receptive plays

variable {bot eventId closesAt} {plays : Nat → Prop} {command : OrderedRegistrationCommand}
  {w : World} {α : Type}

theorem endures_onDomainError {E : Surround World Input} {Q : α → World → Prop} {p : Act α}
    {handler : DomainError → Act α} (hp : endures E Q p w) :
    endures E Q (onDomainError p handler) w := by
  refine wp_catching.mpr (wp_mono hp (fun _ _ h => h) fun failure _ hfailure => ?_)
  cases failure with
  | domain error => exact absurd rfl (hfailure error)
  | fault fault => exact fun error => nofun

/-- The second stage finds the game whose close has started. -/
theorem endures_closingEvent (hstage : IsSecondStage bot eventId closesAt command) :
    endures (around bot eventId closesAt plays) (fun closing w' =>
        w'.events.get eventId = some closing.1 ∧
        closing.1.scheduledCloseOperationId = some closing.2 ∧
        closing.2 = closingOperationId bot eventId closesAt)
      (closingEvent bot command) w := by
  refine endures_call fun w' ⟨_, _, event, hstored, hcloses, hstarted⟩ i _ => ?_
  have hread : (Call.perform (.events (.get command.eventId)) i w').1 = some event := by
    rw [hstage.game]
    exact hstored
  rw [hread]
  dsimp only
  rw [hcloses]
  dsimp only
  rw [Events.eventId_of_get hstored, hstage.operation, hstage.id]
  have hexpected : expectedId bot (closingOperationId bot eventId closesAt)
      .scheduledCloseStatistics =
        some (stageOperationId bot (closingOperationId bot eventId closesAt) "statistics") := rfl
  rw [if_neg (not_not.mpr hexpected)]
  exact ⟨hstored, hstarted, rfl⟩

/-- The second stage queues the last one, or it finds the close completed. -/
theorem endures_addStatistics (hstage : IsSecondStage bot eventId closesAt command) :
    endures (around bot eventId closesAt plays) (fun _ w' => GoneOn bot eventId closesAt w')
      (addStatistics bot command) w := by
  refine endures_seq (endures_closingEvent hstage) fun closing w₁ ⟨hstored, hstarted, hoperation⟩ => ?_
  obtain ⟨event, operationId⟩ := closing
  dsimp only at hstored hstarted hoperation ⊢
  subst hoperation
  split
  · next hcompleted => exact .inr ⟨event, hstored, hcompleted⟩
  · rw [if_neg (not_not.mpr hstarted)]
    refine endures_then (R := fun _ _ => True) ?_ fun _ w₂ => ?_
    · unfold whenever
      split
      · next hopen =>
        have hsome : (w₁.events.get eventId).isSome := by rw [hstored]; rfl
        have hunarchived : ¬ w₁.events.Has eventId (·.archivedAt.isSome) := by
          rintro ⟨found, hfound, harchived⟩
          rw [hstored] at hfound
          obtain rfl := Option.some.inj hfound
          have hnone : event.archivedAt = none := Option.isNone_iff_eq_none.mp hopen
          simp [hnone] at harchived
        rw [Events.eventId_of_get hstored]
        have hmoves (w w' : World) (h : (around bot eventId closesAt plays).moves w w') :
            Leaves eventId w w' ∧ Enterable plays eventId w' := ⟨h.1, h.2.1⟩
        have hadmits (i : Input) (h : (around bot eventId closesAt plays).admits i) :
            Receptive plays i := h
        exact endures_then (endures_addGame bot hmoves hadmits hsome hunarchived) fun _ _ => trivial
      · trivial
    · refine endures_seq (R := fun _ w' => lastStage bot eventId closesAt ∈ w'.published) ?_
        fun _ _ h => .inl h
      rw [Events.eventId_of_get hstored]
      refine endures_call fun w₃ _ i _ => ?_
      show endures _ _ (present "publish" (i (.publish (lastStage bot eventId closesAt))))
        (OutsideCall.record (.publish (lastStage bot eventId closesAt))
          (i (.publish (lastStage bot eventId closesAt))) w₃)
      cases i (.publish (lastStage bot eventId closesAt)) with
      | none => exact fun error => nofun
      | some _ => exact List.mem_append_right _ List.mem_cons_self

/-- An attempt at the second stage returns only where the close has gone on. -/
theorem endures_process {tables : OtherServices} (hstage : IsSecondStage bot eventId closesAt command) :
    endures (around bot eventId closesAt plays) (fun _ w' => GoneOn bot eventId closesAt w')
      (process bot (services bot tables) command) w := by
  have hmutate : endures (around bot eventId closesAt plays)
      (fun result w' => result.notificationsEnabled = false ∧ GoneOn bot eventId closesAt w')
      (mutate bot (services bot tables) command) w := by
    unfold mutate services
    rw [hstage.operation]
    refine endures_seq (R := fun (result : String × Bool) w' => result.2 = false ∧
      GoneOn bot eventId closesAt w') ?_ ?_
    · exact endures_seq (endures_addStatistics hstage) fun text w' h => ⟨rfl, h⟩
    · rintro ⟨text, enabled⟩ w' ⟨henabled, hgone⟩
      exact ⟨henabled, hgone⟩
  have hrespond : endures (around bot eventId closesAt plays)
      (fun reply w' => reply.notificationsEnabled = false ∧ GoneOn bot eventId closesAt w')
      (respond bot (services bot tables) command) w := by
    have houtcome : endures (around bot eventId closesAt plays)
        (fun outcome w' => (∃ result, outcome = Sum.inl result ∧
          result.notificationsEnabled = false) ∧ GoneOn bot eventId closesAt w')
        (mutation bot (services bot tables) command) w :=
      endures_onDomainError (endures_seq hmutate fun result w' h => ⟨⟨result, rfl, h.1⟩, h.2⟩)
    refine endures_seq houtcome fun outcome w' ⟨⟨result, hresult, hquiet⟩, hgone⟩ => ?_
    subst hresult
    dsimp only
    rw [hquiet]
    exact ⟨rfl, hgone⟩
  refine endures_seq hrespond fun reply w' ⟨hquiet, hgone⟩ => ?_
  -- the author of the stage is not answered
  rw [hquiet, hstage.operation]
  exact hgone

/-! ## Runs -/

variable (bot eventId closesAt plays)

/-- The step lets the second stage of the close do its work until the last stage is queued. Where an
attempt at it makes a call, the game is stored with its close under way, and what the attempt enters
is accepted; what others do while it is at work leaves the game alone. -/
def LetsEnter (s : Plant) : Move → Prop
  | .call lane i => ∀ command c, s.Calls lane command c → lastStage bot eventId closesAt ∉ s.world.published →
      (IsSecondStage bot eventId closesAt command → Enterable plays eventId s.world ∧
        UnderWay bot eventId closesAt s.world ∧ Receptive plays i) ∧
      (lane ≠ "statistics" → ∀ command' p, s.Working "statistics" command' p →
        IsSecondStage bot eventId closesAt command' → Leaves eventId s.world (c.perform i s.world).2)
  | .outside world => (∀ command ∈ s.world.published, command ∈ world.published) ∧
      (lastStage bot eventId closesAt ∉ s.world.published →
        ∀ command p, s.Working "statistics" command p → IsSecondStage bot eventId closesAt command →
          Leaves eventId s.world world)
  | _ => True

variable {bot eventId closesAt plays}

/-- The second stage waits in the lane of the statistics. -/
theorem IsSecondStage.lane_eq {otherServices : OtherServices} {s : Plant} {lane : String}
    {p : Act Reply} (hstage : IsSecondStage bot eventId closesAt command)
    (hattempts : s.Attempts (queue bot otherServices) (fun _ => True) fun _ _ _ => True)
    (hworking : s.Working lane command p) : lane = "statistics" := by
  obtain ⟨rest, hlane⟩ := hworking
  have hgroup : command.queueGroupId = lane := (hattempts.oldest hlane).1
  rw [← hgroup, OrderedRegistrationCommand.queueGroupId, hstage.operation]

/-- What is known of an attempt at the second stage stays known while the others leave it alone. -/
theorem endures_stays {p : Act α} {w' : World}
    (h : lastStage bot eventId closesAt ∈ w.published ∨
      endures (around bot eventId closesAt plays) (fun _ w' => GoneOn bot eventId closesAt w') p w)
    (hleaves : Leaves eventId w w')
    (hqueued : lastStage bot eventId closesAt ∈ w.published →
      lastStage bot eventId closesAt ∈ w'.published) :
    lastStage bot eventId closesAt ∈ w'.published ∨
      endures (around bot eventId closesAt plays) (fun _ w' => GoneOn bot eventId closesAt w') p w' := by
  refine h.imp hqueued fun hendures => wp_stable hendures ?_ ?_ fun _ h => h
  · rintro w'' ⟨hleaves', henterable, hunderWay⟩
    exact ⟨hleaves.trans hleaves', henterable, hunderWay⟩
  · exact fun _ hgone => hgone.imp hqueued hleaves.completed

/-- In every run that lets the second stage of a close do its work, the worker deletes the stage only
after the last stage has been queued, unless the close has been completed: it has nothing to report. -/
theorem second_stage_answered {tables : OtherServices} {s₀ s : Plant}
    (hs : Fleet.Reaches (queue bot (services bot tables)) storage
      (LetsEnter bot eventId closesAt plays) s₀ s) (hidle : s₀.Idle)
    {lane : String} {command : OrderedRegistrationCommand} {reply : Reply}
    (hreturns : s.Returns lane command reply) (hstage : IsSecondStage bot eventId closesAt command)
    {event : Event} (hevent : s.world.events.get eventId = some event)
    (hopen : event.scheduledCloseCompletedAt = none) :
    lastStage bot eventId closesAt ∈ s.world.published := by
  have hknows := hs.rely_rule
    (fun s => s.Attempts (queue bot (services bot tables)) (fun _ => True) fun _ _ _ => True)
    (fun command p w => IsSecondStage bot eventId closesAt command →
      lastStage bot eventId closesAt ∈ w.published ∨
        endures (around bot eventId closesAt plays) (fun _ w' => GoneOn bot eventId closesAt w') p w)
    hidle (fun _ hs => hs.grouped hidle) ?_ ?_ ?_ ?_ lane command (.done reply) hreturns hstage
  · rcases hknows with hqueued | hqueued | ⟨stored, hstored, hcompleted⟩
    · exact hqueued
    · exact hqueued
    · rw [hevent] at hstored
      obtain rfl := Option.some.inj hstored
      simp [hopen] at hcompleted
  · exact fun s command _ hstage => .inr (endures_process hstage)
  · intro s lane i command c next _ hC hworking hknows hstage
    by_cases hqueued : lastStage bot eventId closesAt ∈ s.world.published
    · exact .inl (published_stays hqueued)
    · obtain ⟨henterable, hunderWay, hreceptive⟩ := (hC command c hworking.calls hqueued).1 hstage
      have hendures := (hknows hstage).resolve_left hqueued
      exact .inr (hendures s.world ⟨Leaves.refl _, henterable, hunderWay⟩ i hreceptive).2
  · intro s lane i command c next lane' command' p hattempts hC hworking hlane hworking' hknows hstage
    by_cases hqueued : lastStage bot eventId closesAt ∈ s.world.published
    · exact .inl (published_stays hqueued)
    · obtain rfl := hstage.lane_eq hattempts hworking'
      have hleaves : Leaves eventId s.world (c.perform i s.world).2 :=
        (hC command c hworking.calls hqueued).2 hlane command' p hworking' hstage
      exact endures_stays (hknows hstage) hleaves published_stays
  · intro s w lane command p hattempts hC hworking hknows hstage
    by_cases hqueued : lastStage bot eventId closesAt ∈ s.world.published
    · exact .inl (hC.1 _ hqueued)
    · obtain rfl := hstage.lane_eq hattempts hworking
      exact endures_stays (hknows hstage) (hC.2 hqueued command p hworking hstage) (hC.1 _)

end Stage

/-! ## A master without a profile -/

section Samples

/-- The first stage has run, and an attempt at the second one has come to its end. -/
def secondStageMoves : List Move :=
  stageMoves (sampleStage .close) 1 ++ .publish (sampleStage .statistics) :: .start "statistics" ::
    List.replicate 40 (.call "statistics" (goodDay 2))

theorem sampleStage_isSecondStage :
    IsSecondStage sampleBot "game" 0 (sampleStage .statistics) :=
  ⟨rfl, rfl, rfl⟩

/-- The game as the second stage finds it, where nobody plays in a chat. -/
def enterable (w : World) : Bool :=
  (confirmedRows (w.registrations.listForEvent "game")).all (isStatisticsName <| surnameAndName ·.displayName) &&
    (masterNames w.users.listAll (w.leaders.listLeaders "game")).any (·.all isStatisticsName) &&
    (w.events.get "game").any fun event => event.scheduledCloseAt = some 0 &&
      event.scheduledCloseOperationId = some sampleClose

theorem enterable_of_check {w : World} (h : enterable w = true) :
    Enterable (fun _ => False) "game" w ∧ UnderWay sampleBot "game" 0 w := by
  simp only [enterable, Bool.and_eq_true, List.all_eq_true, Option.any_eq_true, decide_eq_true_eq] at h
  obtain ⟨⟨hplayers, masters, hmasters, hnames⟩, event, hevent, hcloses, hstarted⟩ := h
  exact ⟨⟨hplayers, ⟨masters, hmasters, hnames⟩, fun _ _ => False.elim⟩, event, hevent, hcloses, hstarted⟩

theorem goodDay_receptive (now : Time) : Receptive (fun _ => False) (goodDay now) := by
  constructor
  · intro _ _ _ _ hmember
    exact nomatch hmember
  · intro _ _ _ _ _ hanswer
    exact nomatch hanswer
  · intro _ _ _ hanswer
    exact nomatch hanswer

/-- The step lets the second stage work, as far as it can be read off a plant. -/
def letsEnter (s : Plant) : Move → Bool
  | .call lane _ => match s.pending lane with
    | some (command, _) =>
      if lane = "statistics" then enterable s.world
      else command.operation ≠ .scheduledCloseStatistics && match s.lanes "statistics" with
        | .resting _ => true
        | .working _ _ _ => false
    | none => true
  | .outside _ => false
  | _ => true

theorem letsEnter_of_check {s : Plant} {l : Move} (h : letsEnter s l = true)
    (hl : ∀ lane i, l = .call lane i → Receptive (fun _ => False) i) :
    LetsEnter sampleBot "game" 0 (fun _ => False) s l := by
  cases l with
  | call lane i =>
    intro command c hcalls _
    rw [letsEnter, hcalls.pending] at h
    dsimp only at h
    split at h
    · next hlane =>
      obtain ⟨henterable, hunderWay⟩ := enterable_of_check h
      exact ⟨fun _ => ⟨henterable, hunderWay, hl lane i rfl⟩, fun hother => absurd hlane hother⟩
    · simp only [Bool.and_eq_true, decide_eq_true_eq] at h
      refine ⟨fun hstage => absurd hstage.operation h.1, fun _ command' p hworking _ => ?_⟩
      obtain ⟨rest, hlane⟩ := hworking
      simp [hlane] at h
  | outside world => exact nomatch h
  | _ => trivial

/-- The second stage of a game whose master has a profile. -/
def enteredPlant : Plant :=
  closingPlant.play closingQueue storage secondStageMoves

theorem enteredPlant_reached : Fleet.Reaches closingQueue storage
    (LetsEnter sampleBot "game" 0 fun _ => False) closingPlant enteredPlant := by
  have hcheck : Fleet.Meets closingQueue storage (fun s l => letsEnter s l = true) closingPlant
      secondStageMoves := by
    decide +kernel
  have hreceptive : ∀ l ∈ secondStageMoves, ∀ lane i, l = .call lane i →
      Receptive (fun _ => False) i := by
    intro l hl lane i hcall
    have hgood : ∃ now, i = goodDay now := by
      simp only [secondStageMoves, stageMoves, Fleet.attempt, List.mem_append, List.mem_cons,
        List.mem_replicate, hcall] at hl
      grind
    obtain ⟨now, rfl⟩ := hgood
    exact goodDay_receptive now
  exact (Fleet.Reaches.refl.play_meets (hcheck.and hreceptive)).mono fun s l h =>
    letsEnter_of_check h.1 h.2

theorem enteredPlant_queued : ∃ reply, enteredPlant.Returns "statistics" (sampleStage .statistics) reply ∧
    lastStage sampleBot "game" 0 ∈ enteredPlant.world.published := by
  have hreturned : returnsNext enteredPlant "statistics" (sampleStage .statistics) = true := by decide +kernel
  have hstored : (enteredPlant.world.events.get "game").isSome := by decide +kernel
  have hopen : (enteredPlant.world.events.get "game").all
      (·.scheduledCloseCompletedAt.isNone) = true := by decide +kernel
  have hreached := enteredPlant_reached
  generalize enteredPlant = s at hreturned hstored hopen hreached ⊢
  obtain ⟨reply, hreturns⟩ := returns_of_check hreturned
  obtain ⟨event, hevent⟩ := Option.isSome_iff_exists.mp hstored
  rw [hevent, Option.all_some, Option.isNone_iff_eq_none] at hopen
  exact ⟨reply, hreturns, second_stage_answered hreached (fun _ => rfl) hreturns
    sampleStage_isSecondStage hevent hopen⟩

/-- The same game, with a master who has no profile. -/
def strangerPlant : Plant :=
  { closingPlant with world := { closingWorld with users := Table.empty } }

def silentPlant : Plant :=
  strangerPlant.play closingQueue storage secondStageMoves

/-- The second stage is deleted, the game is closed and not archived, the last stage is not queued, and
the master of the game has been sent nothing at all. -/
theorem silentPlant_silent : ∃ (s₀ s : Plant) (reply : Reply) (event : Event),
    Fleet.Reaches closingQueue storage ClosingStep s₀ s ∧ s₀.Idle ∧ s₀.history = [] ∧
    Unstarted s₀.world ∧ s.Returns "statistics" (sampleStage .statistics) reply ∧
    IsSecondStage sampleBot "game" 0 (sampleStage .statistics) ∧ UnderWay sampleBot "game" 0 s.world ∧
    s.world.events.get "game" = some event ∧ event.status = .closed ∧ event.archivedAt = none ∧
    event.scheduledCloseCompletedAt = none ∧ lastStage sampleBot "game" 0 ∉ s.world.published ∧
    ⟨.telegram, 1⟩ ∈ s.world.leaders.listLeaders "game" ∧ s.world.sent = [] := by
  have hcheck : Fleet.Meets closingQueue storage (fun s l => closesInOrder true s l = true)
      strangerPlant secondStageMoves := by
    decide +kernel
  have hreached : Fleet.Reaches closingQueue storage ClosingStep strangerPlant silentPlant :=
    (Fleet.Reaches.refl.play_meets hcheck).mono fun s l h => closingStep_of_check h
  have hreturned : returnsNext silentPlant "statistics" (sampleStage .statistics) = true := by decide +kernel
  have hmarks : (silentPlant.world.events.get "game").any (fun event =>
      event.scheduledCloseAt = some 0 && event.scheduledCloseOperationId = some sampleClose &&
        event.status = .closed && event.archivedAt.isNone &&
        event.scheduledCloseCompletedAt.isNone) = true := by
    decide +kernel
  have hsilent : silentPlant.world.published.contains (lastStage sampleBot "game" 0) = false ∧
      silentPlant.world.sent = [] ∧
      silentPlant.world.leaders.listLeaders "game" = [⟨.telegram, 1⟩] := by
    decide +kernel
  have hunstarted : Unstarted strangerPlant.world := by
    exact ⟨closingWorld_unstarted.operation, closingWorld_unstarted.completed,
      closingWorld_unstarted.published⟩
  generalize silentPlant = s at hreached hreturned hmarks hsilent
  obtain ⟨reply, hreturns⟩ := returns_of_check hreturned
  obtain ⟨event, hevent, hmarks⟩ := (Option.any_eq_true _ _).mp hmarks
  simp only [Bool.and_eq_true, decide_eq_true_eq, Option.isNone_iff_eq_none] at hmarks
  obtain ⟨⟨⟨⟨hcloses, hstarted⟩, hclosed⟩, hopen⟩, huncompleted⟩ := hmarks
  obtain ⟨hunpublished, hsent, hleaders⟩ := hsilent
  refine ⟨strangerPlant, s, reply, event, hreached, fun _ => rfl, rfl, hunstarted, hreturns,
    sampleStage_isSecondStage, ⟨event, hevent, hcloses, hstarted⟩, hevent, hclosed, hopen, huncompleted, ?_, ?_,
    hsent⟩
  · intro hqueued
    rw [List.contains_iff_mem.mpr hqueued] at hunpublished
    cases hunpublished
  · rw [hleaders]
    exact List.mem_cons_self

end Samples

end LarpBot
