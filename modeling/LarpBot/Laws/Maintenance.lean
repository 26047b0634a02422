import LarpBot.Laws.Attempt
import LarpBot.Laws.Conduct

/-!
# Maintenance

`Maintains` is what a maintenance call leaves alone: every profile, every message, every stored
registration, and every event up to its `core`. It only ever adds: a migration mark, a table, the
rows of a legacy workbook. A program that makes no other call leaves the same alone from start to
end (`does_maintenance`), so no later proof looks into one.
-/

namespace LarpBot

open Atomic Act

/-- An event without the fields that maintenance rewrites. -/
def Event.core (event : Event) : Event :=
  { event with
    masterTableGoogleUrl := none
    publicTableResourcePath := none
    publicTablePublicUrl := none
    publicTableGoogleUrl := none
    registrationsMigratedAt := none
    updatedAt := 0
    public_table_atomic := rfl }

@[simp] theorem Event.eventId_core (event : Event) : event.core.eventId = event.eventId := rfl

/-- Events with one core agree in every field that maintenance leaves alone. -/
theorem Event.eq_of_core {α : Type} (field : Event → α) (hfield : ∀ e, field e.core = field e)
    {event' : Event} (h : event'.core = event.core) : field event' = field event := by
  rw [← hfield event', h, hfield]

/-- The event is stored and passes a test. -/
def Events.Has (events : Events) (eventId : EventId) (p : Event → Bool) : Prop :=
  ∃ event, events.get eventId = some event ∧ p event

/-- What maintenance leaves alone, and what it only adds. -/
structure Maintains (w w' : World) : Prop where
  users : w'.users = w.users
  events : w'.events.rows.map Event.core = w.events.rows.map Event.core
  migrated : ∀ eventId, w.events.Has eventId (·.registrationsMigratedAt.isSome) →
    w'.events.Has eventId (·.registrationsMigratedAt.isSome)
  tables : ∀ eventId, w.events.Has eventId (·.publicTableResourcePath.isSome) →
    w'.events.Has eventId (·.publicTableResourcePath.isSome)
  leaders : w'.leaders = w.leaders
  registrations : w.registrations.rows <+: w'.registrations.rows
  participationDeliveries : w'.participationDeliveries = w.participationDeliveries
  sent : w'.sent = w.sent
  published : w'.published = w.published
  kicked : w'.kicked = w.kicked

/-- Tables with the same cores hold the same events up to their cores. -/
theorem Events.core_get {events events' : Events}
    (h : events'.rows.map Event.core = events.rows.map Event.core) (eventId : EventId) :
    (events'.get eventId).map Event.core = (events.get eventId).map Event.core := by
  have find (t : Events) : (t.get eventId).map Event.core =
      (t.rows.map Event.core).find? fun event => event.eventId = eventId := by
    rw [List.find?_map]; rfl
  rw [find, find, h]

namespace Maintains

variable {w w' w'' : World}

theorem refl (w : World) : Maintains w w :=
  ⟨rfl, rfl, fun _ h => h, fun _ h => h, rfl, List.prefix_refl _, rfl, rfl, rfl, rfl⟩

theorem trans (h : Maintains w w') (h' : Maintains w' w'') : Maintains w w'' where
  users := h'.users.trans h.users
  events := h'.events.trans h.events
  migrated eventId hm := h'.migrated eventId (h.migrated eventId hm)
  tables eventId ht := h'.tables eventId (h.tables eventId ht)
  leaders := h'.leaders.trans h.leaders
  registrations := h.registrations.trans h'.registrations
  participationDeliveries := h'.participationDeliveries.trans h.participationDeliveries
  sent := h'.sent.trans h.sent
  published := h'.published.trans h.published
  kicked := h'.kicked.trans h.kicked

/-- An event that is stored stays stored, with the same core. -/
theorem get (h : Maintains w w') {eventId : EventId} {event : Event}
    (hevent : w.events.get eventId = some event) :
    ∃ event', w'.events.get eventId = some event' ∧ event'.core = event.core := by
  have := Events.core_get h.events eventId
  rwa [hevent, Option.map_some, Option.map_eq_some_iff] at this

end Maintains

/-! ## One call -/

theorem perform_read {c : Call} (hc : c.IsRead) (i : Input) (w : World) :
    (c.perform i w).2 = w := by
  cases c with
  | users c => cases c <;> first | rfl | exact hc.elim
  | events c => cases c <;> first | rfl | exact hc.elim
  | listLeaders => rfl
  | registrations c => cases c <;> first | rfl | exact hc.elim
  | participationNotificationDelivered => rfl
  | markParticipationNotificationDelivered => exact hc.elim
  | outside c => cases c <;> first | rfl | exact hc.elim

/-- The row of one event is rewritten, or the table is left alone. -/
inductive Events.Rewrites (f : Event → Event) (events : Events) : Events → Prop
  | same : Rewrites f events events
  | modify (eventId : EventId) (hf : ∀ e, (f e).eventId = e.eventId) :
    Rewrites f events (events.modify eventId f hf)

section Writers

variable {events : Events} {eventId : EventId} {f : Event → Event}
  {hf : ∀ e, (f e).eventId = e.eventId}

theorem Events.rewrites_existing : Events.Rewrites f events (events.existing eventId f hf).2 := by
  unfold Events.existing
  split
  · exact .same
  · exact .modify eventId hf

theorem Events.rewrites_when {p : Event → Bool} :
    Events.Rewrites f events (events.when eventId p f hf).2 := by
  unfold Events.when
  split
  · exact .same
  · split
    · exact .modify eventId hf
    · exact .same

theorem Events.rewrites_always {changed : Event → Bool} :
    Events.Rewrites f events (events.always eventId changed f hf).2 := by
  unfold Events.always
  split
  · exact .same
  · exact .modify eventId hf

/-- What a rewrite leaves alone in a row, it leaves alone in all rows. -/
theorem Events.Rewrites.map_rows {events' : Events} (h : Events.Rewrites f events events')
    {β : Type} {g : Event → β} (hg : ∀ e, g (f e) = g e) :
    events'.rows.map g = events.rows.map g := by
  cases h with
  | same => rfl
  | modify eventId hf => exact Table.map_rows_modify _ _ _ hf hg

theorem Events.Rewrites.has {events' : Events} (h : Events.Rewrites f events events')
    {p : Event → Bool} (hp : ∀ e, p e → p (f e)) {eventId : EventId} (hhas : events.Has eventId p) :
    events'.Has eventId p := by
  cases h with
  | same => exact hhas
  | modify eventId' hf =>
    obtain ⟨event, hget, hpass⟩ := hhas
    rw [Events.get] at hget
    rw [Events.Has, Events.get, Table.find?_modify]
    by_cases hid : eventId = eventId'
    · rw [if_pos hid, ← hid, hget]
      exact ⟨f event, rfl, hp event hpass⟩
    · rw [if_neg hid]
      exact ⟨event, hget, hpass⟩

/-- A stored event is marked as migrated. -/
theorem Events.has_markRegistrationsMigrated {event : Event} (h : events.get eventId = some event)
    (migratedAt : Time) : (events.markRegistrationsMigrated eventId migratedAt).1 = .ok () ∧
      (events.markRegistrationsMigrated eventId migratedAt).2.Has eventId
        (·.registrationsMigratedAt.isSome) := by
  rw [markRegistrationsMigrated, existing_of_get h]
  refine ⟨rfl, ?_⟩
  rw [Events.Has, get_modify h]
  exact ⟨_, rfl, rfl⟩

end Writers

theorem maintains_events {w : World} {events : Events} {f : Event → Event}
    (h : Events.Rewrites f w.events events) (hcore : ∀ e, (f e).core = e.core)
    (hmigrated : ∀ e, e.registrationsMigratedAt.isSome → (f e).registrationsMigratedAt.isSome)
    (htable : ∀ e, e.publicTableResourcePath.isSome → (f e).publicTableResourcePath.isSome) :
    Maintains w { w with events := events } :=
  { Maintains.refl w with
    events := h.map_rows hcore
    migrated := fun _ => h.has hmigrated
    tables := fun _ => h.has htable }

theorem maintains_perform {legal : Legal} {c : Call} (hc : c.IsMaintenance legal) (i : Input)
    (w : World) : Maintains w (c.perform i w).2 := by
  have hread {c : Call} (hc : c.IsRead) : Maintains w (c.perform i w).2 := by
    rw [perform_read hc]
    exact Maintains.refl w
  cases c with
  | events c =>
    cases c with
    | setPublicTable =>
      exact maintains_events Events.rewrites_when (fun _ => rfl) (fun _ h => h) fun _ _ => rfl
    | setGoogleTableLinks =>
      exact maintains_events Events.rewrites_always (fun _ => rfl) (fun _ h => h) fun _ h => h
    | markRegistrationsMigrated =>
      exact maintains_events Events.rewrites_existing (fun _ => rfl) (fun _ _ => rfl) fun _ h => h
    | _ => exact hread hc
  | registrations c =>
    cases c with
    | importMissing rows =>
      exact { Maintains.refl w with registrations := Table.prefix_foldl_insertNew _ rows }
    | _ => exact hread hc
  | _ => exact hread hc

/-- No demand on the workbooks. -/
abbrev anyWorkbook : Workbooks := fun _ _ => True

/-! ## Programs -/

section Programs

variable {α : Type} {p : Act α} {Q : α → Prop} {admits : Input → Prop} {w : World}

theorem respects_anyWorkbook (i : Input) : Input.Respects anyWorkbook i :=
  fun _ _ _ => trivial

/-- A program of maintenance calls maintains, if nobody disturbs it. -/
theorem does_maintenance (hp : makes anyWorkbook (Call.IsMaintenance anyWorkbook) Q p) :
    does admits (fun a w' => Maintains w w' ∧ Q a) (fun _ w' => Maintains w w') p w :=
  wp_alone_of_makes Maintains.refl (fun _ _ _ => Maintains.trans) hp
    (fun _ i _ _ => plausible_perform (respects_anyWorkbook i) fun _ _ => trivial)
    fun _ i w hop _ => maintains_perform hop i w

/-- A program of reads leaves the world as it is. -/
theorem does_reads (hp : makes anyWorkbook Call.IsRead Q p) :
    does admits (fun a w' => w' = w ∧ Q a) (fun _ w' => w' = w) p w :=
  wp_alone_of_makes (R := fun w w' => w' = w) (fun _ => rfl) (fun _ _ _ h h' => h'.trans h) hp
    (fun _ i _ _ => plausible_perform (respects_anyWorkbook i) fun _ _ => trivial)
    fun _ i w hop _ => perform_read hop i w

end Programs

/-! ## When the outside answers -/

/-- A failed integration: the call raised, or the message was refused for now. -/
def OutsideCall.Raises : (c : OutsideCall) → c.Ans → Prop
  | .now, _ => False
  | .send _ _ _ _ _, outcome => outcome = .failed
  | .isAdmin _ _, answer | .kickMember _ _ _, answer | .passTableExists _, answer => answer = none
  | .readLegacyRegistrations _, answer => answer = none
  | .createPublicEventWorkbook _ _ _ _, answer => answer = none
  | .replace _ _ _, answer => answer = none
  | .deleteEventWorkbook _, answer | .replacePassTable _ _, answer | .deletePassTable _, answer
  | .deleteAchievementPresentation _, answer | .publish _, answer => answer = none
  | .createPassTable _ _, answer => answer = none
  | .getChatMember _ _ _, answer => answer = none
  | .resolveUserId _, answer => answer = none
  | .prepareStatistics _ _ _ _, answer | .commitStatistics _ _, answer
  | .hasAnyPlayer _, answer => answer.isOk = false
  | .linkStatistics _, answer => answer.isOk = false

/-- Every integration but the messenger answers. -/
def Reliable (i : Input) : Prop :=
  ∀ c : OutsideCall, (∀ platform userId requestId text buttons,
    c ≠ .send platform userId requestId text buttons) → ¬ c.Raises (i c)

namespace Reliable

variable {i : Input} (hi : Reliable i)
include hi

theorem created (path : String) (rows : List Registration) (playerAmount : Nat)
    (question : Option RegistrationQuestion) :
    ∃ url, i (.createPublicEventWorkbook path rows playerAmount question) = some url :=
  Option.ne_none_iff_exists'.mp (hi (.createPublicEventWorkbook path rows playerAmount question)
    (by simp))

theorem imported (event : Event) : ∃ rows, i (.readLegacyRegistrations event) = some rows :=
  Option.ne_none_iff_exists'.mp (hi (.readLegacyRegistrations event) (by simp))

theorem replaced (event : Event) (rows : List Registration)
    (answers : List (ParticipantKey × Option Bool)) :
    ∃ urls, i (.replace event rows answers) = some urls :=
  Option.ne_none_iff_exists'.mp (hi (.replace event rows answers) (by simp))

end Reliable

section Answered

variable {admits : Input → Prop} {w : World} (bot : Deployment)

/-- A stored event gets its public table, also if other fields of it were written since it was read. -/
theorem does_ensurePublicTable (hadmits : ∀ i, admits i → Reliable i) {event stored : Event}
    {rows : List Registration} (hevent : w.events.get event.eventId = some stored)
    (htable : stored.publicTablePublicUrl = event.publicTablePublicUrl) :
    does admits (fun event' _ => event'.eventId = event.eventId) (fun _ _ => False)
      (ensurePublicTable bot event rows) w := by
  unfold ensurePublicTable
  split
  · rfl
  · next habsent =>
    refine does_outside (fun _ => rfl) fun i hi => ?_
    obtain ⟨url, hurl⟩ := (hadmits i hi).created
      (publicTablePath bot event.eventId event.name) rows event.playerAmount
      event.registrationQuestion
    refine does_present hurl ?_
    cases url with
    | none => exact rfl
    | some publicUrl =>
      refine does_events fun now => ?_
      have hmissing : stored.publicTablePublicUrl.isNone := by
        have := event.public_table_atomic
        simp_all
      -- the stored event has no link either, so the table is attached
      rw [if_pos (by simp [EventCall.perform, Events.setPublicTable, Events.when, hevent, hmissing])]
      rfl

theorem does_refresh (hadmits : ∀ i, admits i → Reliable i) {event stored : Event}
    (hevent : w.events.get event.eventId = some stored)
    (htable : stored.publicTablePublicUrl = event.publicTablePublicUrl) :
    does admits (fun event' _ => event'.eventId = event.eventId) (fun _ _ => False)
      (refresh bot event) w := by
  refine does_seq (R := fun result _ => result.1.eventId = event.eventId) (Y := fun _ _ => False)
    ?_ (fun _ _ h => h) fun result _ hresult => ?_
  swap
  · exact hresult
  refine does_registrations fun now => ?_
  refine does_seq (does_ensurePublicTable bot hadmits hevent htable) (fun _ _ h => h) fun event' w hid => ?_
  refine does_seq (R := fun _ _ => True) (Y := fun _ _ => False) ?_ (fun _ _ h => h) ?_
  · split
    · trivial
    · exact does_users fun _ => trivial
  · intro answers w _
    refine does_outside (fun _ => rfl) fun i hi => ?_
    obtain ⟨urls, hurls⟩ := (hadmits i hi).replaced event' _ answers
    refine does_present hurls ?_
    split
    · exact hid
    · refine does_events fun _ => does_events fun now => ?_
      show ((Events.get _ event'.eventId).getD event').eventId = event.eventId
      cases hstored : Events.get _ event'.eventId with
      | none => exact hid
      | some stored => exact (Events.eventId_of_get hstored).trans hid

/-- The migration of a stored event does not fail. -/
theorem does_ensureMigrated (hadmits : ∀ i, admits i → Reliable i) {event : Event}
    (hevent : w.events.get event.eventId = some event) :
    does admits (fun _ w' => Maintains w w' ∧
        w'.events.Has event.eventId (·.registrationsMigratedAt.isSome))
      (fun _ _ => False) (ensureMigrated bot event) w := by
  suffices does admits (fun _ w' => w'.events.Has event.eventId (·.registrationsMigratedAt.isSome))
      (fun _ _ => False) (ensureMigrated bot event) w from
    does_mono (does_and this (does_maintenance (maintenance_ensureMigrated bot trivial)))
      (fun _ _ h => ⟨h.2.1, h.1⟩) fun _ _ h => h.1
  unfold ensureMigrated
  split
  · next hmigrated => exact ⟨event, hevent, hmigrated⟩
  · refine does_seq (R := fun _ w' => w'.events = w.events) (Y := fun _ _ => False) ?_
      (fun _ _ h => h) fun _ w₁ hw₁ => ?_
    · cases bot.legacyRegistrationImports with
      | false => rfl
      | true =>
        refine does_outside (fun _ => rfl) fun i hi => ?_
        obtain ⟨rows, hrows⟩ := (hadmits i hi).imported event
        refine does_present hrows ?_
        exact does_one (Q := fun _ w' => w'.events = w.events) fun _ _ => rfl
    · rw [← hw₁] at hevent
      refine does_seq (does_and (does_refresh bot hadmits hevent rfl)
        (does_maintenance (maintenance_refresh bot event))) (fun _ _ h => h.1)
        fun event' w₂ ⟨hid, hmaintains, _⟩ => ?_
      obtain ⟨stored, hstored, -⟩ := hmaintains.get hevent
      refine does_outside (fun _ => rfl) fun i _ => does_events fun now => ?_
      obtain ⟨hmarked, hhas⟩ := Events.has_markRegistrationsMigrated hstored (i .now)
      rw [← hid] at hmarked
      refine does_value hmarked ?_
      show Events.Has (w₂.events.markRegistrationsMigrated event'.eventId (i .now)).2 _ _
      rwa [hid]

end Answered

/-! ## A concrete outside -/

/-- The integrations of a good day, with a messenger that does what it is told. -/
def answering (transport : BotIdentity → String → SendOutcome) : Input
  | .now => 0
  | .isAdmin _ _ => some false
  | .send platform userId requestId _ _ => transport ⟨platform, userId⟩ requestId
  | .kickMember _ _ _ => some true
  | .readLegacyRegistrations _ => some []
  | .createPublicEventWorkbook _ _ _ _ => some (some "https://disk.example/public")
  | .replace _ _ _ => some none
  | .passTableExists _ => some false
  | .deleteEventWorkbook _ | .replacePassTable _ _ | .deletePassTable _
  | .deleteAchievementPresentation _ | .publish _ => some ()
  | .createPassTable _ _ => some (some "https://disk.example/pass")
  | .getChatMember _ _ _ => some none
  | .resolveUserId _ => some none
  | .prepareStatistics _ _ _ _ | .hasAnyPlayer _ => .ok true
  | .commitStatistics _ changed => .ok changed
  | .linkStatistics _ => .ok "https://drive.example/statistics"

theorem reliable_answering (transport : BotIdentity → String → SendOutcome) :
    Reliable (answering transport) := by
  intro c hc
  cases c <;> first
    | exact absurd rfl (hc _ _ _ _ _)
    | simp [OutsideCall.Raises, answering, Except.isOk, Except.toBool]

/-- A deployment whose participant keys can be read. -/
def sampleBot : Deployment where
  participantKey platform userId eventId := s!"{platform.value}:{userId}:{eventId}"
  uuid5 := id
  casefold := fun value => value.map Char.toLower

/-- No service stands behind the operations that are handed on. -/
def noServices : OtherServices :=
  fun _ => return ("", false)

end LarpBot
