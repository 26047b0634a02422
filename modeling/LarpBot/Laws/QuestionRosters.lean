import LarpBot.Application.EventAdministration
import LarpBot.Laws.EventChanges
import LarpBot.Laws.QueueOrder

/-!
# The roster of a game with a question

The answer of a registration and the options of the question live in two tables. The roster
functions drop a row whose option is gone without a word, so that everybody has a place rests on an
agreement between the tables: a question may change its texts but never the identifiers and amounts
of its options (its `shape`), and every registration holds the identifier of one of them. The
agreement is made when the game is created and every command keeps it, in any order
(`question_roster_reached`).
-/

namespace LarpBot

open Atomic Act
open Prog (Makes)

/-! ## Rosters -/

/-- Every active registration has one place, in the main roster or in the reserve, and the places
of each option are as many as it offers. -/
structure SplitRoster (event : Event) (question : RegistrationQuestion) (rows : List Registration) :
    Prop where
  asked : event.registrationQuestion = some question
  answered : ∀ row ∈ rows, ∃ option ∈ question.options, row.answerId = some option.optionId
  once : (mainRoster event rows ++ reserveRoster event rows).Perm (rows.filter isActive)
  bounded : ∀ option ∈ question.options,
    ((mainRoster event rows).filter fun row => row.answerId = some option.optionId).length ≤
      option.playerAmount
  total : event.playerAmount = (question.options.map AnswerOption.playerAmount).sum
  placed : ∀ row ∈ rows, isActive row →
    (answerCapacity event row.answerId).isSome ∧ (queuePosition event rows row).isSome

variable {event : Event} {question : RegistrationQuestion} {rows : List Registration}
  {row : Registration}

theorem mem_activeQueue {answerId : Option String} : row ∈ activeQueue rows answerId ↔
    row ∈ rows ∧ isActive row ∧ (answerId = none ∨ row.answerId = answerId) := by
  simp [activeQueue, Option.isNone_iff_eq_none]

theorem perm_activeQueue (rows : List Registration) : (activeQueue rows).Perm (rows.filter isActive) := by
  have hsort := sortBy_perm queueKey (rows.filter fun row => isActive row &&
    ((none : Option String).isNone || row.answerId = none))
  simpa [activeQueue] using hsort

theorem nodup_activeQueue (h : rows.Nodup) (answerId : Option String) :
    (activeQueue rows answerId).Nodup :=
  nodup_sortBy.mpr (h.filter _)

theorem mem_mainRoster_split (hasked : event.registrationQuestion = some question)
    (h : row ∈ mainRoster event rows) : row ∈ rows ∧ isActive row := by
  rw [mainRoster, hasked] at h
  obtain ⟨option, -, hrow⟩ := List.mem_flatMap.mp h
  have hqueue := mem_activeQueue.mp (List.mem_of_mem_take hrow)
  exact ⟨hqueue.1, hqueue.2.1⟩

/-- The head of the queue of an option. -/
def optionHead (rows : List Registration) (option : AnswerOption) : List Registration :=
  (activeQueue rows (some option.optionId)).take option.playerAmount

theorem mainRoster_split (hasked : event.registrationQuestion = some question) :
    mainRoster event rows = question.options.flatMap (optionHead rows) := by
  rw [mainRoster, hasked]
  rfl

theorem answerId_of_optionHead {option : AnswerOption} (h : row ∈ optionHead rows option) :
    row.answerId = some option.optionId := by
  have hqueue := mem_activeQueue.mp (List.mem_of_mem_take h)
  exact hqueue.2.2.resolve_left (by simp)

/-- The rows of a question have an option each, and different rows have different keys. -/
structure Answered (question : RegistrationQuestion) (rows : List Registration) : Prop where
  keys : (rows.map Registration.participantKey).Nodup
  answers : ∀ row ∈ rows, ∃ option ∈ question.options, row.answerId = some option.optionId

theorem nodup_mainRoster (hasked : event.registrationQuestion = some question)
    (hrows : rows.Nodup) : (mainRoster event rows).Nodup := by
  rw [mainRoster_split hasked]
  refine nodup_flatMap_of_tag Registration.answerId (fun o => some o.optionId) ?_ ?_ ?_
  · have hdistinct := question.distinct.map (Option.some_injective String)
    rwa [List.map_map] at hdistinct
  · exact fun option _ row hrow => answerId_of_optionHead hrow
  · exact fun option _ => (nodup_activeQueue hrows _).sublist (List.take_sublist _ _)

theorem main_and_reserve (hasked : event.registrationQuestion = some question)
    (h : Answered question rows) :
    (mainRoster event rows ++ reserveRoster event rows).Perm (rows.filter isActive) := by
  have hrows : rows.Nodup := h.keys.of_map
  have hqueue := perm_activeQueue rows
  have hkeys : ((activeQueue rows).map Registration.participantKey).Nodup :=
    (hqueue.map _).nodup_iff.mpr (h.keys.sublist (List.filter_sublist.map _))
  have hsub : mainRoster event rows ⊆ activeQueue rows := by
    intro row hrow
    obtain ⟨hmem, hactive⟩ := mem_mainRoster_split hasked hrow
    exact mem_activeQueue.mpr ⟨hmem, hactive, .inl rfl⟩
  have hall := append_others_perm hkeys (nodup_mainRoster hasked hrows) hsub
  exact hall.trans hqueue

theorem length_mainRoster_answer (hasked : event.registrationQuestion = some question)
    {option : AnswerOption} (hoption : option ∈ question.options) :
    ((mainRoster event rows).filter fun row => row.answerId = some option.optionId).length ≤
      option.playerAmount := by
  have hdistinct : (question.options.map fun o => some o.optionId).Nodup := by
    have hdistinct := question.distinct.map (Option.some_injective String)
    rwa [List.map_map] at hdistinct
  rw [mainRoster_split hasked, filter_flatMap_eq Registration.answerId
    (fun o : AnswerOption => some o.optionId) hdistinct
    (fun option _ row hrow => answerId_of_optionHead hrow) hoption]
  exact List.length_take_le _ _

theorem answerCapacity_isSome (hasked : event.registrationQuestion = some question)
    {option : AnswerOption} (hoption : option ∈ question.options)
    (hanswer : row.answerId = some option.optionId) :
    (answerCapacity event row.answerId).isSome := by
  have hfound : (question.option row.answerId).isSome := by
    rw [RegistrationQuestion.option, List.find?_isSome]
    exact ⟨option, hoption, by simp [hanswer]⟩
  rw [answerCapacity, hasked]
  simpa using hfound

theorem queuePosition_isSome (hrow : row ∈ rows) (hactive : isActive row) :
    (queuePosition event rows row).isSome := by
  simp only [queuePosition, Option.isSome_map, List.findIdx?_isSome, List.any_eq_true]
  refine ⟨row, ?_, by simp⟩
  split
  · exact mem_activeQueue.mpr ⟨hrow, hactive, .inr rfl⟩
  · exact mem_activeQueue.mpr ⟨hrow, hactive, .inl rfl⟩

/-- A roster whose rows have an option each is split between main roster and reserve. -/
theorem Answered.splitRoster (h : Answered question rows)
    (hasked : event.registrationQuestion = some question)
    (htotal : event.playerAmount = (question.options.map AnswerOption.playerAmount).sum) :
    SplitRoster event question rows where
  asked := hasked
  answered := h.answers
  once := main_and_reserve hasked h
  bounded := fun _ hoption => length_mainRoster_answer hasked hoption
  total := htotal
  placed := by
    intro row hrow hactive
    obtain ⟨option, hoption, hanswer⟩ := h.answers row hrow
    exact ⟨answerCapacity_isSome hasked hoption hanswer, queuePosition_isSome hrow hactive⟩

/-! ## Answers across a call -/

/-- Where the answer of a row comes from: the row had it, it came with a signup or a change of
answer, or the row is imported. -/
theorem answerId_of_perform {c : RegistrationCall} {now : Time} {t : Registrations}
    {row' : Registration} (h : row' ∈ (c.perform now t).2.rows) :
    (∃ row ∈ t.rows, row.key = row'.key ∧ row'.answerId = row.answerId) ∨
    (∃ a, c = .enlist row'.eventId a ∧ row'.answerId = a.answerId) ∨
    (∃ op keys answerId, c = .updateAnswer row'.eventId op keys answerId ∧
      row'.answerId = some answerId) ∨
    ∃ rows, c = .importMissing rows ∧ row' ∈ rows := by
  rcases RegistrationCall.mem_perform h with hold | ⟨row, hrow, hchange⟩ | hcreate
  · exact .inl ⟨row', hold, rfl, rfl⟩
  · cases hchange with
    | stamp hc => exact .inl ⟨row, hrow, (hc.key row).symm, hc.answerId row⟩
    | @enlist e a _ hkey =>
      obtain rfl : row.eventId = e := (Prod.mk.inj hkey).1
      exact .inr (.inl ⟨a, rfl, rfl⟩)
    | updateAnswer hevent =>
      subst hevent
      exact .inr (.inr (.inl ⟨_, _, _, rfl, rfl⟩))
    | sift =>
      refine .inl ⟨row, hrow, (Registrations.key_siftRow _ row).symm, ?_⟩
      unfold Registrations.siftRow
      split <;> rfl
    | swap => exact .inl ⟨row, hrow, rfl, rfl⟩
  · cases hcreate with
    | importMissing hmem => exact .inr (.inr (.inr ⟨_, rfl, hmem⟩))
    | enlist => exact .inr (.inl ⟨_, rfl, rfl⟩)

/-! ## The agreement of the two tables -/

/-- A game with a question of this shape, created after the rows moved to the database. -/
structure Event.Splits (shape : List (String × Nat)) (event : Event) : Prop where
  question : ∃ question, event.registrationQuestion = some question ∧ question.shape = shape
  total : event.playerAmount = (shape.map Prod.snd).sum
  migrated : event.registrationsMigratedAt.isSome

variable {shape : List (String × Nat)} {eventId : EventId}

/-- What is known of the stored events while the game keeps its shape. -/
def splitLegal (shape : List (String × Nat)) (eventId : EventId) : Legal where
  workbooks := fun _ _ => True
  stored event := event.eventId = eventId → event.Splits shape
  migrated := fun _ _ h hid => ⟨(h hid).question, (h hid).total, rfl⟩
  tabled := fun _ _ _ _ h hid => ⟨(h hid).question, (h hid).total, (h hid).migrated⟩

/-- The stored events and registrations agree on the game. -/
structure Agrees (shape : List (String × Nat)) (eventId : EventId) (w : World) : Prop where
  events : ∀ event ∈ w.events.rows, (splitLegal shape eventId).stored event
  answers : ∀ row ∈ w.registrations.rows, row.eventId = eventId →
    ∃ option ∈ shape, row.answerId = some option.1

/-- The calls of other services: no answer and no capacity among their writes. -/
def Call.SparesRosters (legal : Legal) (c : Call) : Prop :=
  match c with
  | .events (.setPlayerAmount _ _) | .events (.setRegistrationQuestion _ _) => False
  | .registrations c => (Call.registrations c).IsMaintenance legal ∨ ∃ e op key a,
      c = .updateProfile e op key a
  | _ => True

theorem RegistrationQuestion.amounts_shape (question : RegistrationQuestion) :
    (question.shape.map Prod.snd).sum = (question.options.map AnswerOption.playerAmount).sum := by
  rw [RegistrationQuestion.shape, List.map_map]
  rfl

/-- An answer that a game of the shape takes is an identifier of the shape. -/
theorem Event.Splits.accepted {answerId : Option String} (h : event.Splits shape)
    (haccepts : event.Accepts answerId) : ∃ option ∈ shape, answerId = some option.1 := by
  obtain ⟨question, hasked, rfl⟩ := h.question
  rw [Event.Accepts, hasked] at haccepts
  obtain ⟨option, hoption⟩ := Option.isSome_iff_exists.mp haccepts
  have hid : some option.optionId = answerId := by simpa using List.find?_some hoption
  exact ⟨(option.optionId, option.playerAmount),
    List.mem_map.mpr ⟨option, List.mem_of_find?_eq_some hoption, rfl⟩, hid.symm⟩

/-- Most writes leave the question, the capacity and the mark of the migration alone. -/
theorem Event.Splits.amend {c : EventCall} {now : Time} (h : event.Splits shape)
    (hamount : ∀ e amount, c ≠ .setPlayerAmount e amount)
    (hquestion : ∀ e question, c = .setRegistrationQuestion e question → question.shape = shape) :
    (c.amend now event).Splits shape := by
  obtain ⟨hasked, htotal, hmigrated⟩ := h
  cases c with
  | setPlayerAmount e amount => exact absurd rfl (hamount e amount)
  | setRegistrationQuestion e question =>
    have hshape := hquestion e question rfl
    exact ⟨⟨question, rfl, hshape⟩, by rw [← hshape, question.amounts_shape]; rfl, hmigrated⟩
  | markRegistrationsMigrated => exact ⟨hasked, htotal, rfl⟩
  | setParticipantRemoval | addParticipantRemovalKeys | markParticipantRemovalDelivered
  | markScheduledCloseNotificationDelivered | completeScheduledCloseNotifications =>
    simp only [EventCall.amend]
    split <;> exact ⟨hasked, htotal, hmigrated⟩
  | _ => exact ⟨hasked, htotal, hmigrated⟩

/-- What a call may be for the game: one of a command's, or one of another service's. -/
def PermitsGame (shape : List (String × Nat)) (eventId : EventId)
    (command : OrderedRegistrationCommand) (c : Call) : Prop :=
  command.MayCall (splitLegal shape eventId) c ∨ c.SparesRosters (splitLegal shape eventId)

variable {command : OrderedRegistrationCommand} {w : World}

/-- No permitted call changes the capacity of a game with a question, and one that changes its
question keeps the shape. -/
theorem Agrees.events_perform {c : EventCall} {now : Time} (h : Agrees shape eventId w)
    (hc : PermitsGame shape eventId command (.events c)) :
    ∀ event ∈ (c.perform now w.events).2.rows, (splitLegal shape eventId).stored event := by
  intro event' hevent' hid'
  rcases EventCall.mem_perform hevent' with hold | ⟨event, hevent, habout, -, rfl⟩
  · exact h.events event' hold hid'
  have hid : event.eventId = eventId := by
    rw [← hid']
    exact (EventCall.eventId_amend c event).symm
  have hsplits : event.Splits shape := h.events event hevent hid
  refine hsplits.amend ?_ ?_
  · rintro e amount rfl
    rcases hc with hrecord | hspares
    · obtain ⟨-, stored, hstored, hsame, hnone⟩ := hrecord
      obtain rfl : e = event.eventId := Option.some.inj habout
      obtain ⟨question, hasked, -⟩ := (hstored (hsame.trans hid)).question
      rw [hnone] at hasked
      exact nomatch hasked
    · exact hspares
  · rintro e question rfl
    rcases hc with hrecord | hspares
    · obtain ⟨-, stored, current, hstored, hsame, hcurrent, hshape⟩ := hrecord
      obtain rfl : e = event.eventId := Option.some.inj habout
      obtain ⟨asked, hasked, hasked'⟩ := (hstored (hsame.trans hid)).question
      rw [hcurrent] at hasked
      obtain rfl := Option.some.inj hasked
      exact hshape.symm.trans hasked'
    · exact hspares.elim

/-- A permitted call that writes an answer writes one that the game takes. -/
theorem Agrees.registrations_perform {c : RegistrationCall} {now : Time} (h : Agrees shape eventId w)
    (hc : PermitsGame shape eventId command (.registrations c)) :
    ∀ row ∈ (c.perform now w.registrations).2.rows, row.eventId = eventId →
      ∃ option ∈ shape, row.answerId = some option.1 := by
  intro row' hrow' hid'
  rcases answerId_of_perform hrow' with ⟨row, hrow, hkey, hanswer⟩ | ⟨a, rfl, hanswer⟩ |
    ⟨op, keys, answerId, rfl, hanswer⟩ | ⟨rows, rfl, hmem⟩
  · obtain ⟨option, hoption, hrowAnswer⟩ :=
      h.answers row hrow ((Prod.mk.inj hkey).1.trans hid')
    exact ⟨option, hoption, hanswer.trans hrowAnswer⟩
  · rcases hc with ⟨-, stored, hstored, hsame, haccepts⟩ | hspares
    · obtain ⟨option, hoption, hid⟩ := (hstored (hsame.trans hid')).accepted haccepts
      exact ⟨option, hoption, hanswer.trans hid⟩
    · rcases hspares with hmaintenance | ⟨_, _, _, _, h⟩
      · exact hmaintenance.elim
      · exact nomatch h
  · rcases hc with ⟨-, stored, hstored, hsame, -, haccepts⟩ | hspares
    · obtain ⟨option, hoption, hid⟩ := (hstored (hsame.trans hid')).accepted haccepts
      exact ⟨option, hoption, hanswer.trans hid⟩
    · rcases hspares with hmaintenance | ⟨_, _, _, _, h⟩
      · exact hmaintenance.elim
      · exact nomatch h
  · -- rows are imported for events that were never migrated, and the game was
    have himport : (Call.registrations (.importMissing rows)).IsMaintenance
        (splitLegal shape eventId) := by
      rcases hc with hwrite | hmaintenance | ⟨_, _, _, _, h⟩
      · exact hwrite
      · exact hmaintenance
      · exact nomatch h
    obtain ⟨stored, legacy, hstored, hnone, -, rfl⟩ := himport
    obtain ⟨imported, -, rfl⟩ := List.mem_map.mp hmem
    have hmigrated := (hstored hid').migrated
    rw [hnone] at hmigrated
    exact nomatch hmigrated

theorem Agrees.perform {c : Call} {i : Input} (h : Agrees shape eventId w)
    (hc : PermitsGame shape eventId command c) : Agrees shape eventId (c.perform i w).2 := by
  cases c with
  | events c => exact ⟨h.events_perform hc, h.answers⟩
  | registrations c => exact ⟨h.events, h.registrations_perform hc⟩
  | outside c => exact ⟨by rw [Call.perform, c.events_record]; exact h.events,
      by rw [Call.perform, c.registrations_record]; exact h.answers⟩
  | _ => exact ⟨h.events, h.answers⟩

/-! ## Runs -/

/-- The rest of the bot leaves the question, the capacity and the answers of a game alone. -/
structure SparesGame (eventId : EventId) (w w' : World) : Prop where
  events : ∀ event' ∈ w'.events.rows, event'.eventId = eventId →
    ∃ event ∈ w.events.rows, event.eventId = eventId ∧
      event'.registrationQuestion = event.registrationQuestion ∧
      event'.playerAmount = event.playerAmount ∧
      event'.registrationsMigratedAt.isSome = event.registrationsMigratedAt.isSome
  answers : ∀ row' ∈ w'.registrations.rows, row'.eventId = eventId →
    ∃ row ∈ w.registrations.rows, row.eventId = eventId ∧ row'.answerId = row.answerId

theorem Agrees.spared {w' : World} (h : Agrees shape eventId w) (hspares : SparesGame eventId w w') :
    Agrees shape eventId w' := by
  constructor
  · intro event' hevent' hid'
    obtain ⟨event, hevent, hid, hquestion, hamount, hmigrated⟩ := hspares.events event' hevent' hid'
    obtain ⟨hasked, htotal, hmark⟩ := h.events event hevent hid
    exact ⟨hquestion ▸ hasked, hamount.trans htotal, hmigrated.trans hmark⟩
  · intro row' hrow' hid'
    obtain ⟨row, hrow, hid, hanswer⟩ := hspares.answers row' hrow' hid'
    obtain ⟨option, hoption, hrowAnswer⟩ := h.answers row hrow hid
    exact ⟨option, hoption, hanswer.trans hrowAnswer⟩

/-- The world before and after `create_event` stores a game with the question. -/
def CreatesGame (question : RegistrationQuestion) (eventId : EventId) (w w' : World) : Prop :=
  ∃ bot draft leaders now urls, draft.question = some question ∧
    createEvent bot draft leaders now eventId urls w = .ok w'

theorem splits_draft {bot : Deployment} {draft : GameDraft} {now : Time} {urls : BundleUrls}
    (hquestion : draft.question = some question) :
    (draft.event bot now eventId urls).Splits question.shape where
  question := ⟨question, hquestion, rfl⟩
  total := by
    rw [question.amounts_shape]
    show draft.capacity = _
    rw [GameDraft.capacity, hquestion]
  migrated := rfl

theorem Agrees.created {w' : World} (h : Agrees question.shape eventId w)
    (hcreates : CreatesGame question eventId w w') : Agrees question.shape eventId w' := by
  obtain ⟨bot, draft, leaders, now, urls, hquestion, hcreate⟩ := hcreates
  unfold createEvent at hcreate
  split at hcreate
  · exact nomatch hcreate
  · unfold World.create at hcreate
    split at hcreate
    · exact nomatch hcreate
    · obtain rfl := Except.ok.inj hcreate
      refine ⟨fun event hevent hid => ?_, h.answers⟩
      rcases Table.mem_insertNew hevent with hold | ⟨rfl, -⟩
      · exact h.events event hold hid
      · exact splits_draft hquestion

/-- Any step, as long as nobody but the worker touches the question and the answers of the game once
it is created. -/
def AllowsGame (question : RegistrationQuestion) (eventId : EventId) (s : Plant) : Move → Prop
  | .outside world =>
    CreatesGame question eventId s.world world ∨ SparesGame eventId s.world world
  | _ => True

section Runs

variable {bot : Deployment} {otherServices : OtherServices} {s₀ s : Plant}

theorem permitsGame_process
    (hosts : ∀ command, makes (splitLegal shape eventId)
      (Call.SparesRosters (splitLegal shape eventId)) (fun _ => True) (otherServices command))
    (command : OrderedRegistrationCommand) :
    makes (splitLegal shape eventId) (PermitsGame shape eventId command) (fun _ => True)
      (process bot otherServices command) := by
  refine makes_process bot ?_ fun c hc => .inl hc.mayCall
  unfold mutate
  split
  · exact (makes_mono (hosts command) fun c hc => .inr hc).bind fun _ _ => trivial
  · exact makes_mono (writes_apply bot) fun _ hc => .inl hc

/-- The tables agree on the game in every state that a run reaches. -/
theorem agrees_reached
    (hs : Fleet.Reaches (queue bot otherServices) storage (AllowsGame question eventId) s₀ s)
    (hosts : ∀ command, makes (splitLegal question.shape eventId)
      (Call.SparesRosters (splitLegal question.shape eventId)) (fun _ => True)
      (otherServices command))
    (hidle : s₀.Idle) (hagrees : Agrees question.shape eventId s₀.world) :
    Agrees question.shape eventId s.world := by
  refine (hs.rule (K := fun _ => True) (R := fun _ command p =>
      makes (splitLegal question.shape eventId) (PermitsGame question.shape eventId command)
        (fun _ => True) p)
    (Agrees question.shape eventId) (fun _ _ => True) hidle hagrees ?_ ?_ ?_ ?_ ?_ ?_ ?_).1
  · exact Along.of_forall fun _ _ => trivial
  · exact fun _ _ _ => trivial
  · intro s w h hw
    rcases h with hcreates | hspares
    · exact hw.created hcreates
    · exact hw.spared hspares
  · exact fun _ command _ => permitsGame_process hosts command
  · intro s g i command op next _ _ _ hw _ hp
    have hrespects : Input.Respects (splitLegal question.shape eventId).workbooks i :=
      fun _ _ _ => trivial
    exact ⟨hw.perform hp.1, trivial, hp.2 _ (plausible_perform hrespects hw.events)⟩
  · exact fun _ _ _ _ _ _ _ _ _ => trivial
  · exact fun _ _ _ _ _ h => h

theorem keys_listForEvent (t : Registrations) (eventId : EventId) :
    ((t.listForEvent eventId).map Registration.participantKey).Nodup := by
  refine List.Nodup.map_on (fun u hu v hv hkey => ?_) (nodup_sortBy.mpr (t.rows_nodup.filter _))
  obtain ⟨hu, huEvent⟩ := List.mem_filter.mp (mem_sortBy.mp hu)
  obtain ⟨hv, hvEvent⟩ := List.mem_filter.mp (mem_sortBy.mp hv)
  have hevent : u.eventId = v.eventId :=
    (of_decide_eq_true huEvent).trans (of_decide_eq_true hvEvent).symm
  exact Table.eq_of_key_eq hu hv (Prod.ext hevent hkey)

theorem Agrees.answered (h : Agrees question.shape eventId w) :
    Answered question (w.registrations.listForEvent eventId) := by
  refine ⟨keys_listForEvent _ _, fun row hrow => ?_⟩
  obtain ⟨hmem, hevent⟩ := List.mem_filter.mp (mem_sortBy.mp hrow)
  obtain ⟨pair, hpair, hanswer⟩ := h.answers row hmem (of_decide_eq_true hevent)
  obtain ⟨option, hoption, rfl⟩ := List.mem_map.mp hpair
  exact ⟨option, hoption, hanswer⟩

/-- In every state that is reached from before a game with a question is created, its roster is split
between main roster and reserve by a question of the same shape. -/
theorem question_roster_reached
    (hs : Fleet.Reaches (queue bot otherServices) storage (AllowsGame question eventId) s₀ s)
    (hosts : ∀ command, makes (splitLegal question.shape eventId)
      (Call.SparesRosters (splitLegal question.shape eventId)) (fun _ => True)
      (otherServices command))
    (hidle : s₀.Idle) (hnew : ∀ event ∈ s₀.world.events.rows, event.eventId ≠ eventId)
    (hempty : ∀ row ∈ s₀.world.registrations.rows, row.eventId ≠ eventId) {event : Event}
    (hevent : s.world.events.get eventId = some event) :
    ∃ current, current.shape = question.shape ∧
      SplitRoster event current (s.world.registrations.listForEvent eventId) := by
  have hagrees : Agrees question.shape eventId s.world :=
    agrees_reached hs hosts hidle ⟨fun event hevent hid => absurd hid (hnew event hevent),
      fun row hrow hid => absurd hid (hempty row hrow)⟩
  obtain ⟨⟨current, hasked, hshape⟩, htotal, -⟩ :=
    hagrees.events event (Table.mem_of_find? hevent) (Events.eventId_of_get hevent)
  rw [← hshape] at hagrees htotal
  exact ⟨current, hshape, hagrees.answered.splitRoster hasked
    (htotal.trans current.amounts_shape)⟩

end Runs

/-! ## A game with two tables -/

def tableQuestion : RegistrationQuestion :=
  ⟨"Стол?", [⟨"a", "Первый", 1⟩, ⟨"b", "Второй", 1⟩], by decide⟩

def tableDraft : GameDraft where
  name := "Игра"
  gameDate := ⟨2026, 5, 1⟩
  playerAmount := 0
  question := some tableQuestion

/-- The players have profiles, and the game is not there yet. -/
def newcomersWorld : World where
  users := ⟨[1, 2, 3].map samplePlayer, by decide⟩

def tableWorld : World :=
  (createEvent sampleBot tableDraft [] 0 "game" ⟨"https://disk/m", "https://disk/p", none, none⟩
    newcomersWorld).toOption.getD newcomersWorld

def answerChange (player : Nat) (answerId : String) : OrderedRegistrationCommand where
  operationId := s!"answer-{player}"
  eventId := "game"
  operation := .updateAnswer
  platform := .telegram
  platformUserId := player
  participantKey := some (sampleKey player "game")
  payload := .answer answerId
  participant_named := fun _ => sampleKey_ne_empty player "game"

/-- Two players sign up for the first table, one of whom finds no place and moves to the second. -/
def tableSchedule : List Move :=
  [.publish (signup 1), .publish (signup 2), .publish (answerChange 2 "b")] ++
  Fleet.attempt "game" 40 (goodDay 0) (.finish "game") ++
  Fleet.attempt "game" 40 (goodDay 1) (.finish "game") ++
  Fleet.attempt "game" 40 (goodDay 2) (.finish "game")

def tablePlant : Plant :=
  Fleet.play (queue sampleBot noServices) storage { world := tableWorld } tableSchedule

theorem tablePlant_reached :
    Fleet.Reaches (queue sampleBot noServices) storage (AllowsGame tableQuestion "game")
      { world := newcomersWorld } tablePlant := by
  have hcreated : CreatesGame tableQuestion "game" newcomersWorld tableWorld :=
    ⟨sampleBot, tableDraft, [], 0, _, rfl, rfl⟩
  have hown : tableSchedule.all isOwnMove = true := by decide +kernel
  refine Fleet.Reaches.play (.step (l := .outside tableWorld) .refl (.inl hcreated)) ?_
  intro s l hl
  cases l with
  | outside world => exact nomatch List.all_eq_true.mp hown _ hl
  | _ => trivial

theorem tablePlant_roster : ∃ event current,
    tablePlant.world.events.get "game" = some event ∧ current.shape = tableQuestion.shape ∧
      SplitRoster event current (tablePlant.world.registrations.listForEvent "game") := by
  have hstored : (tablePlant.world.events.get "game").isSome := by decide +kernel
  obtain ⟨event, hevent⟩ := Option.isSome_iff_exists.mp hstored
  obtain ⟨current, hshape, hsplit⟩ := question_roster_reached tablePlant_reached (fun _ => trivial)
    (fun _ => rfl) (by decide) (by decide) hevent
  exact ⟨event, current, hevent, hshape, hsplit⟩

example : (tablePlant.world.registrations.listForEvent "game").map Registration.answerId =
    [some "a", some "b"] := by
  decide +kernel

end LarpBot
