import LarpBot.Application.Worker

/-!
# The calls of the services

What a service may do is read off its text, whatever the store holds and whoever else writes it: a
read reads, a refresh only keeps derived data current, and a write goes out under the operation id
of its command and to the event that the command names. `makes` is that reading. The answers it
takes into account are the `Plausible` ones: a row found under a key has that key, and a legacy
workbook holds what `legal` says.
-/

namespace LarpBot

open Atomic Act
open Prog (Makes)

/-- The workbooks that the outside may hand out for an event. -/
abbrev Workbooks := EventId → List LegacyRow → Prop

/-- What is known of the answers: the workbooks, and the events that the store may hold. The services
amend the events that they have read, and what is known of an event outlives the amendments. -/
structure Legal where
  workbooks : Workbooks
  stored : Event → Prop := fun _ => True
  migrated : ∀ event migratedAt, stored event →
    stored { event with registrationsMigratedAt := some migratedAt } := by exact fun _ _ h => h
  tabled : ∀ event resourcePath publicUrl googleUrl, stored event →
    stored (event.withPublicTable resourcePath publicUrl googleUrl) := by exact fun _ _ _ _ h => h

instance : Coe Workbooks Legal := ⟨fun workbooks => { workbooks := workbooks }⟩

/-- What the answer to a call tells about its own arguments. -/
def Plausible (legal : Legal) : (c : Call) → c.Ans → Prop
  | .users (.get platform userId), answer => ∀ user ∈ answer, user.identity = ⟨platform, userId⟩
  | .events (.get eventId), answer =>
    ∀ event ∈ answer, event.eventId = eventId ∧ legal.stored event
  | .events (.listPage _ _ _), answer => ∀ page, answer = .ok page → ∀ event ∈ page, legal.stored event
  | .registrations (.get eventId key), answer => ∀ row ∈ answer, row.key = (eventId, key)
  | .registrations (.listForEvent eventId), answer => ∀ row ∈ answer, row.eventId = eventId
  | .registrations (.findByTelegramProfile profile), answer =>
    ∀ row ∈ answer, row.telegramProfile = some profile
  | .outside (.readLegacyRegistrations event), answer =>
    ∀ rows ∈ answer, legal.workbooks event.eventId rows
  | _, _ => True

/-- The outside hands out legal workbooks only. -/
def Input.Respects (workbooks : Workbooks) (i : Input) : Prop :=
  ∀ event, ∀ rows ∈ i (.readLegacyRegistrations event), workbooks event.eventId rows

theorem mem_of_listPage {events : Events} {after : Option (Time × EventId)} {archived : Bool}
    {limit : Nat} {page : List Event} (h : events.listPage after archived limit = .ok page)
    {event : Event} (hevent : event ∈ page) : event ∈ events.rows := by
  unfold Events.listPage at h
  split at h
  · exact nomatch h
  · obtain rfl := Except.ok.inj h
    exact mem_sortBy.mp (List.mem_filter.mp (List.mem_of_mem_take hevent)).1

theorem plausible_perform {legal : Legal} {c : Call} {i : Input}
    (hi : Input.Respects legal.workbooks i) {w : World}
    (hw : ∀ event ∈ w.events.rows, legal.stored event) : Plausible legal c (c.perform i w).1 := by
  cases c with
  | users c =>
    cases c with
    | get platform userId => exact fun user huser => Table.key_of_find? huser
    | _ => trivial
  | events c =>
    cases c with
    | get eventId =>
      exact fun event hevent => ⟨Table.key_of_find? hevent, hw event (Table.mem_of_find? hevent)⟩
    | listPage => exact fun page hpage event hevent => hw event (mem_of_listPage hpage hevent)
    | _ => trivial
  | registrations c =>
    cases c with
    | get eventId key => exact fun row hrow => Table.key_of_find? hrow
    | listForEvent eventId =>
      intro row hrow
      have hrow : row ∈ w.registrations.ofEvent eventId := mem_sortBy.mp hrow
      simpa using (List.mem_filter.mp hrow).2
    | findByTelegramProfile profile =>
      intro row hrow
      simpa using (List.mem_filter.mp (mem_sortBy.mp hrow)).2
    | _ => trivial
  | outside c =>
    cases c with
    | readLegacyRegistrations event => exact hi event
    | _ => trivial
  | _ => trivial

/-- The calls of a program pass `P` and its value passes `Q`, for all plausible answers. -/
abbrev makes {α : Type} (legal : Legal) (P : Call → Prop) (Q : α → Prop) (p : Act α) : Prop :=
  p.Makes (Plausible legal) P Q

/-! ## The combinators -/

section Makes

variable {legal : Legal} {P : Call → Prop} {α β : Type} {Q : α → Prop}

theorem makes_one {c : Call} (hc : P c) : makes legal P (Plausible legal c) (one c) :=
  ⟨hc, fun _ h => h⟩

theorem makes_value (e : Except Fault α) : makes legal P (fun a => e = .ok a) (value e) := by
  cases e
  · trivial
  · exact rfl

theorem makes_present (integration : String) (o : Option α) :
    makes legal P (fun a => o = some a) (present integration o) := by
  cases o
  · trivial
  · exact rfl

theorem makes_found (o : Option α) : makes legal P (fun a => o = some a) (found o) := by
  cases o
  · trivial
  · exact rfl

theorem makes_refuseIf (c : Bool) (text : String) :
    makes legal P (fun _ => c = false) (refuseIf c text) := by
  cases c
  · exact rfl
  · trivial

theorem makes_whenever {c : Bool} {p : Act Unit} (hp : makes legal P (fun _ => True) p) :
    makes legal P (fun _ => True) (whenever c p) := by
  cases c
  · trivial
  · exact hp

/-- A call and what follows it. -/
theorem makes_call {c : Call} {f : c.Ans → Act α} (hc : P c)
    (hf : ∀ a, Plausible legal c a → makes legal P Q (f a)) : makes legal P Q (one c >>= f) :=
  ⟨hc, hf⟩

theorem makes_onDomainError {p : Act α} {handler : DomainError → Act α} (hp : makes legal P Q p)
    (hhandler : ∀ error, makes legal P Q (handler error)) :
    makes legal P Q (onDomainError p handler) := by
  refine Makes.catching hp fun e => ?_
  cases e with
  | domain error => exact hhandler error
  | fault fault => trivial

/-- The value does not matter. -/
theorem makes_any {p : Act α} (hp : makes legal P Q p) : makes legal P (fun _ => True) p :=
  Makes.mono hp (fun _ _ h => h) (fun _ h => h) fun _ _ => trivial

theorem makes_mono {p : Act α} {P' : Call → Prop} (hp : makes legal P Q p)
    (hP : ∀ c, P c → P' c) : makes legal P' Q p :=
  Makes.mono hp (fun _ _ h => h) hP fun _ h => h

theorem makes_scanPages {visit : List Event → Act (List α)} {R : α → Prop}
    (hlist : ∀ after, P (.events (.listPage after false maxEventPageSize)))
    (hvisit : ∀ page, (∀ event ∈ page, legal.stored event) →
      makes legal P (fun seen => ∀ a ∈ seen, R a) (visit page)) (budget : Nat)
    (after : Option (Time × EventId)) :
    makes legal P (fun seen => ∀ a ∈ seen, R a) (scanPages visit budget after) := by
  induction budget generalizing after with
  | zero => trivial
  | succ budget ih =>
    refine makes_call (hlist _) fun answer hanswer => (makes_value _).bind fun page hpage => ?_
    refine (hvisit page (hanswer page hpage)).bind fun seen hseen => ?_
    split
    · exact hseen
    · split
      · exact hseen
      · refine (ih _).bind fun rest hrest a ha => ?_
        rcases List.mem_append.mp ha with h | h
        · exact hseen a h
        · exact hrest a h

end Makes

/-! ## Reads -/

/-- The calls that write nothing. -/
def Call.IsRead : Call → Prop
  | .users (.claimDelivery _ _ _ _) | .users (.save _) | .users (.updateTelegramHandle _ _)
  | .users (.updateTelegramLink _ _ _)
  | .users (.setLarpExperience _ _ _) | .users (.grantLarpExperience _ _) => False
  | .users _ => True
  | .events c => match c with
    | .get _ | .getBySignupToken _ | .listPage _ _ _ => True
    | _ => False
  | .registrations c => match c with
    | .get _ _ | .listForEvent _ | .findByTelegramProfile _ => True
    | _ => False
  | .listLeaders _ | .participationNotificationDelivered _ _ _ => True
  | .markParticipationNotificationDelivered _ _ _ => False
  | .outside c => match c with
    | .send _ _ _ _ _ | .kickMember _ _ _ | .publish _ => False
    | _ => True

section Reads

variable {legal : Legal} (bot : Deployment)

/-- The profiles of a person start with the one asked about. -/
theorem reads_globalUsers (user : User) :
    makes legal Call.IsRead (fun profiles => profiles.head? = some user) (globalUsers user) :=
  makes_call trivial fun _ _ => rfl

theorem reads_globalIdentities (user : User) :
    makes legal Call.IsRead (fun identities => identities.head? = some user.identity)
      (globalIdentities user) :=
  (reads_globalUsers user).bind fun profiles h => by
    show (profiles.map User.identity).head? = _
    rw [List.head?_map, h, Option.map_some]

theorem reads_identitiesForLocalUser (platform : Platform) (userId : Nat) :
    makes legal Call.IsRead (fun identities => identities.head? = some ⟨platform, userId⟩)
      (identitiesForLocalUser platform userId) := by
  refine makes_call trivial fun user huser => ?_
  cases user with
  | none => exact rfl
  | some user =>
    have hid : user.identity = ⟨platform, userId⟩ := huser user rfl
    exact hid ▸ reads_globalIdentities user

/-- What is found are rows of the event under the keys of the identities. -/
theorem reads_registrationsOf (event : Event) (identities : List BotIdentity) :
    makes legal Call.IsRead (fun found => ∀ row ∈ found, row.eventId = event.eventId ∧
        row.participantKey ∈ identities.map (bot.keyOf · event.eventId))
      (registrationsOf bot event identities) := by
  refine Makes.bind (Makes.traverse (R := fun answer => ∀ row ∈ answer,
    row.eventId = event.eventId ∧ row.participantKey ∈ identities.map (bot.keyOf · event.eventId))
    fun identity hidentity => ?_) fun found hfound => ?_
  · refine Makes.mono (makes_one trivial) (fun _ _ h => h) (fun _ h => h) fun answer hanswer row hrow => ?_
    have hkey : row.key = (event.eventId, bot.keyOf identity event.eventId) := hanswer row hrow
    obtain ⟨hevent, hkey⟩ := Prod.mk.inj hkey
    exact ⟨hevent, List.mem_map.mpr ⟨identity, hidentity, hkey.symm⟩⟩
  · intro row hrow
    obtain ⟨answer, hanswer, hrow⟩ := List.mem_filterMap.mp hrow
    exact hfound answer hanswer row hrow

theorem reads_actorRegistrations (event : Event) (command : OrderedRegistrationCommand) :
    makes legal Call.IsRead (fun actor =>
        actor.1.head? = some ⟨command.platform, command.platformUserId⟩ ∧
        ∀ row ∈ actor.2, row.eventId = event.eventId ∧
          row.participantKey ∈ actor.1.map (bot.keyOf · event.eventId))
      (actorRegistrations bot event command) :=
  (reads_identitiesForLocalUser _ _).bind fun identities hidentities =>
    (reads_registrationsOf bot event identities).bind fun _ hfound => ⟨hidentities, hfound⟩

theorem reads_unarchivedEvents :
    makes legal Call.IsRead (fun events => ∀ event ∈ events, legal.stored event)
      (unarchivedEvents bot) := by
  unfold unarchivedEvents
  refine makes_scanPages (fun _ => trivial) (fun page hpage => ?_) _ _
  exact hpage

theorem reads_eventPassProfiles (event : Event) (rows : Option (List Registration)) :
    makes legal Call.IsRead (fun _ => True) (eventPassProfiles bot event rows) := by
  refine Makes.bind (Q := fun _ => True) ?_ fun rows _ => ?_
  · cases rows with
    | none => exact makes_any (makes_one trivial)
    | some rows => trivial
  · exact makes_call trivial fun _ _ => makes_call trivial fun _ _ => trivial

theorem reads_anyAdmin (identities : List BotIdentity) :
    makes legal Call.IsRead (fun _ => True) (anyAdmin identities) :=
  Makes.bind (Makes.traverse (R := fun _ => True) fun _ _ =>
    makes_call trivial fun _ _ => makes_any (makes_present _ _)) fun _ _ => trivial

theorem reads_requireEventLeader (command : OrderedRegistrationCommand) :
    makes legal Call.IsRead (fun _ => True) (requireEventLeader command) := by
  refine (reads_identitiesForLocalUser _ _).bind fun identities _ => ?_
  refine makes_call trivial fun leaders _ => ?_
  split
  · trivial
  · refine (reads_anyAdmin identities).bind fun admin _ => ?_
    cases admin <;> trivial

theorem reads_requireAdmin (command : OrderedRegistrationCommand) :
    makes legal Call.IsRead (fun _ => True) (requireAdmin command) := by
  refine (reads_identitiesForLocalUser _ _).bind fun identities _ => ?_
  refine (reads_anyAdmin identities).bind fun admin _ => ?_
  cases admin <;> trivial

theorem reads_eventMasterRecords (eventId : EventId) :
    makes legal Call.IsRead (fun _ => True) (eventMasterRecords bot eventId) := by
  refine makes_call trivial fun identities _ => ?_
  exact Makes.bind (Makes.traverse (R := fun _ => True) fun _ _ => makes_any (makes_one trivial))
    fun _ _ => trivial

theorem reads_notifiedEvent (eventId : EventId) :
    makes legal Call.IsRead (fun event => event.eventId = eventId ∧ legal.stored event)
      (notifiedEvent eventId) := by
  refine makes_call trivial fun answer hanswer => ?_
  cases answer with
  | none => trivial
  | some event => exact hanswer event rfl

end Reads

/-! ## Maintenance -/

/-- The reads, and the writes that keep the tables of an event current. -/
def Call.IsUpkeep (c : Call) : Prop :=
  match c with
  | .events (.setPublicTable _ _ _ _) | .events (.setGoogleTableLinks _ _ _)
  | .events (.markRegistrationsMigrated _ _) => True
  | c => c.IsRead

/-- The reads, and the writes that keep derived data current: the links of a table, the mark of a
migration, the rows of a legal workbook. -/
def Call.IsMaintenance (legal : Legal) (c : Call) : Prop :=
  match c with
  | .events (.setPublicTable _ _ _ _) | .events (.setGoogleTableLinks _ _ _)
  | .events (.markRegistrationsMigrated _ _) => True
  | .registrations (.importMissing rows) => ∃ event legacy, legal.stored event ∧
      event.registrationsMigratedAt = none ∧ legal.workbooks event.eventId legacy ∧
      rows = legacy.map (LegacyRow.toRegistration event.eventId)
  | c => c.IsRead

theorem Call.IsRead.isMaintenance {legal : Legal} {c : Call} (hc : c.IsRead) :
    c.IsMaintenance legal := by
  cases c with
  | events c => cases c <;> trivial
  | registrations c => cases c <;> trivial
  | _ => exact hc

theorem Call.IsUpkeep.isMaintenance {legal : Legal} {c : Call} (hc : c.IsUpkeep) :
    c.IsMaintenance legal := by
  cases c with
  | events c => cases c <;> trivial
  | registrations c => cases c <;> trivial
  | _ => exact hc

section Maintenance

variable {legal : Legal} (bot : Deployment)

theorem maintenance_of_reads {α : Type} {p : Act α} {Q : α → Prop}
    (hp : makes legal Call.IsRead Q p) : makes legal (Call.IsMaintenance legal) Q p :=
  makes_mono hp fun _ => Call.IsRead.isMaintenance

/-- An event that a service goes on with in the place of another one. -/
structure Legal.Follows (legal : Legal) (event event' : Event) : Prop where
  id : event'.eventId = event.eventId
  stored : legal.stored event → legal.stored event'

theorem Legal.Follows.refl (event : Event) : legal.Follows event event :=
  ⟨rfl, fun h => h⟩

theorem Legal.Follows.trans {event event' event'' : Event} (h : legal.Follows event event')
    (h' : legal.Follows event' event'') : legal.Follows event event'' :=
  ⟨h'.id.trans h.id, fun hstored => h'.stored (h.stored hstored)⟩

theorem Legal.follows_tabled (event : Event) (resourcePath publicUrl : String)
    (googleUrl : Option String) :
    legal.Follows event (event.withPublicTable resourcePath publicUrl googleUrl) :=
  ⟨rfl, legal.tabled event resourcePath publicUrl googleUrl⟩

/-- An event that is read again. -/
theorem Legal.follows_stored {event event' : Event}
    (h : event'.eventId = event.eventId ∧ legal.stored event') : legal.Follows event event' :=
  ⟨h.1, fun _ => h.2⟩

theorem upkeep_ensurePublicTable (event : Event) (rows : List Registration) :
    makes legal Call.IsUpkeep (legal.Follows event)
      (ensurePublicTable bot event rows) := by
  unfold ensurePublicTable
  split
  · exact .refl event
  · refine makes_call trivial fun created _ => (makes_present _ _).bind fun url _ => ?_
    cases url with
    | none => exact .refl event
    | some publicUrl =>
      refine makes_call trivial fun stored _ => ?_
      cases stored with
      | true => exact Legal.follows_tabled event _ _ _
      | false =>
        refine makes_call trivial fun current hcurrent => ?_
        split
        · next found hfound =>
          have hfollows : legal.Follows event found :=
            Legal.follows_stored (hcurrent found (Option.filter_eq_some_iff.mp hfound).1)
          refine (makes_whenever ?_).bind fun _ _ => hfollows
          exact makes_call trivial fun _ _ => makes_any (makes_present _ _)
        · exact makes_call trivial fun _ _ => (makes_present _ _).bind fun _ _ => trivial

theorem maintenance_ensurePublicTable (event : Event) (rows : List Registration) :
    makes legal (Call.IsMaintenance legal) (legal.Follows event)
      (ensurePublicTable bot event rows) :=
  makes_mono (upkeep_ensurePublicTable bot event rows) fun _ => Call.IsUpkeep.isMaintenance

theorem upkeep_refreshWithRows (event : Event) :
    makes legal Call.IsUpkeep (fun result => legal.Follows event result.1)
      (refreshWithRows bot event) := by
  refine makes_call trivial fun rows _ => ?_
  refine (upkeep_ensurePublicTable bot event rows).bind fun event' hfollows => ?_
  refine Makes.bind (Q := fun _ => True) ?_ fun answers _ => ?_
  · split
    · trivial
    · exact makes_call trivial fun _ _ => trivial
  · refine makes_call trivial fun urls _ => (makes_present _ _).bind fun urls _ => ?_
    split
    · exact hfollows
    · refine makes_call trivial fun _ _ => makes_call trivial fun stored hstored => ?_
      cases stored with
      | none => exact hfollows
      | some stored => exact hfollows.trans (Legal.follows_stored (hstored stored rfl))

theorem maintenance_refreshWithRows (event : Event) :
    makes legal (Call.IsMaintenance legal) (fun result => legal.Follows event result.1)
      (refreshWithRows bot event) :=
  makes_mono (upkeep_refreshWithRows bot event) fun _ => Call.IsUpkeep.isMaintenance

theorem upkeep_refresh (event : Event) :
    makes legal Call.IsUpkeep (legal.Follows event) (refresh bot event) :=
  (upkeep_refreshWithRows bot event).bind fun _ hfollows => hfollows

theorem maintenance_refresh (event : Event) :
    makes legal (Call.IsMaintenance legal) (legal.Follows event) (refresh bot event) :=
  makes_mono (upkeep_refresh bot event) fun _ => Call.IsUpkeep.isMaintenance

theorem maintenance_ensureMigrated {event : Event} (hstored : legal.stored event) :
    makes legal (Call.IsMaintenance legal) (legal.Follows event) (ensureMigrated bot event) := by
  unfold ensureMigrated
  split
  · exact .refl event
  · next hmigrated =>
    refine Makes.bind (makes_whenever ?_) fun _ _ => ?_
    · refine makes_call trivial fun answer hanswer => (makes_present _ _).bind fun legacy h => ?_
      have hnone : event.registrationsMigratedAt = none := by simpa using hmigrated
      exact makes_any (makes_one ⟨event, legacy, hstored, hnone, hanswer legacy h, rfl⟩)
    · refine (maintenance_refresh bot event).bind fun event' hfollows => ?_
      refine makes_call trivial fun migratedAt _ => makes_call trivial fun _ _ => ?_
      exact (makes_value _).bind fun _ _ =>
        ⟨hfollows.id, fun h => legal.migrated event' migratedAt (hfollows.stored h)⟩

theorem maintenance_catalogGet {event : Event} (hstored : legal.stored event)
    (key : ParticipantKey) :
    makes legal (Call.IsMaintenance legal) (fun answer => ∀ row ∈ answer, row.key = (event.eventId, key))
      (catalogGet bot event key) :=
  (maintenance_ensureMigrated bot hstored).bind fun _ _ => makes_one trivial

theorem maintenance_catalogRegistrationsOf {event : Event} (hstored : legal.stored event)
    (identities : List BotIdentity) :
    makes legal (Call.IsMaintenance legal) (fun found => ∀ row ∈ found,
        row.eventId = event.eventId ∧ row.participantKey ∈ identities.map (bot.keyOf · event.eventId))
      (catalogRegistrationsOf bot event identities) := by
  refine Makes.bind (Makes.traverse (R := fun answer => ∀ row ∈ answer,
    row.eventId = event.eventId ∧ row.participantKey ∈ identities.map (bot.keyOf · event.eventId))
    fun identity hidentity => ?_) fun found hfound => ?_
  · refine Makes.mono (maintenance_catalogGet bot hstored _) (fun _ _ h => h) (fun _ h => h)
      fun answer hanswer row hrow => ?_
    obtain ⟨hevent, hkey⟩ := Prod.mk.inj (hanswer row hrow)
    exact ⟨hevent, List.mem_map.mpr ⟨identity, hidentity, hkey.symm⟩⟩
  · intro row hrow
    obtain ⟨answer, hanswer, hrow⟩ := List.mem_filterMap.mp hrow
    exact hfound answer hanswer row hrow

theorem maintenance_playerRegistrationsOnDate (identities : List BotIdentity)
    (gameDate : GameDate) (statuses : List AttendanceStatus) (excludeEventId : Option EventId)
    (conflictsWith : Option Event) :
    makes legal (Call.IsMaintenance legal) (fun _ => True) (playerRegistrationsOnDate bot identities
      gameDate statuses excludeEventId conflictsWith) := by
  refine makes_any (makes_scanPages (R := fun _ => True) (fun _ => trivial)
    (fun page hpage => ?_) _ _)
  refine Makes.bind (Makes.traverse (R := fun _ => True) fun event hevent => ?_) fun _ _ =>
    fun _ _ => trivial
  have hstored : legal.stored event := hpage event (List.mem_filter.mp hevent).1
  exact (maintenance_catalogRegistrationsOf bot hstored identities).bind fun _ _ => trivial

theorem maintenance_dailyPassProfiles (gameDate : GameDate) :
    makes legal (Call.IsMaintenance legal) (fun _ => True) (dailyPassProfiles bot gameDate) := by
  refine (maintenance_of_reads (reads_unarchivedEvents bot)).bind fun unarchived hstored => ?_
  dsimp only
  split
  · trivial
  · refine Makes.bind (Makes.traverse (R := fun _ => True) fun event hevent =>
      makes_any (maintenance_ensureMigrated bot (hstored event (List.mem_filter.mp hevent).1)))
      fun _ _ => ?_
    refine Makes.bind (Makes.traverse (R := fun _ => True) fun _ _ =>
      makes_any (makes_one trivial)) fun _ _ => ?_
    refine Makes.bind (Makes.traverse (R := fun _ => True) fun _ _ =>
      makes_any (makes_one trivial)) fun _ _ => ?_
    refine makes_call trivial fun profiles _ => ?_
    exact Makes.bind (Makes.traverse (R := fun _ => True) fun _ _ =>
      makes_any (makes_one trivial)) fun _ _ => trivial

theorem maintenance_refreshDailyPassTable (gameDate : Option GameDate) :
    makes legal (Call.IsMaintenance legal) (fun _ => True)
      (refreshDailyPassTable bot gameDate) := by
  cases gameDate with
  | none => trivial
  | some gameDate =>
    refine makes_call trivial fun _ _ => (makes_present _ _).bind fun _ _ => makes_whenever ?_
    refine (maintenance_dailyPassProfiles bot gameDate).bind fun _ _ => ?_
    exact makes_call trivial fun _ _ => makes_any (makes_present _ _)

theorem maintenance_refreshEventPassTable (event : Event) (rows : Option (List Registration)) :
    makes legal (Call.IsMaintenance legal) (fun _ => True)
      (refreshEventPassTable bot event rows) := by
  unfold refreshEventPassTable
  split
  · trivial
  · refine (maintenance_of_reads (reads_eventPassProfiles bot event rows)).bind fun _ _ => ?_
    exact makes_call trivial fun _ _ => makes_any (makes_present _ _)

theorem maintenance_refreshPassTable (event : Event) (rows : Option (List Registration)) :
    makes legal (Call.IsMaintenance legal) (fun _ => True) (refreshPassTable bot event rows) :=
  (maintenance_refreshEventPassTable bot event rows).bind fun _ _ =>
    maintenance_refreshDailyPassTable bot event.gameDate

theorem maintenance_recipients {event : Event} (hstored : legal.stored event) (statuses : List AttendanceStatus)
    (mainRosterOnly : Bool) :
    makes legal (Call.IsMaintenance legal) (fun _ => True)
      (recipients bot event statuses mainRosterOnly) := by
  refine (maintenance_ensureMigrated bot hstored).bind fun _ _ => ?_
  exact makes_call trivial fun _ _ => makes_call trivial fun _ _ => trivial

/-- What a confirmation may replace is a participation in the event that its payload names. -/
theorem maintenance_namedReplacement (command : OrderedRegistrationCommand) (event : Event)
    (identities : List BotIdentity) (alreadyApplied : Bool) (replacedEventId : EventId) :
    makes legal (Call.IsMaintenance legal) (fun replacement => ∀ r ∈ replacement,
        r.event.eventId = replacedEventId ∧ r.event.eventId ≠ event.eventId)
      (namedReplacement bot command event identities alreadyApplied replacedEventId) := by
  refine makes_call trivial fun replaced hreplaced => ?_
  dsimp only
  split
  · trivial
  · next found hfound =>
    obtain ⟨hfound, hother⟩ := Option.filter_eq_some_iff.mp hfound
    refine (makes_refuseIf _ _).bind fun _ _ => ?_
    obtain ⟨hid, hstored⟩ := hreplaced found hfound
    refine (maintenance_catalogRegistrationsOf bot hstored identities).bind fun _ _ => ?_
    split
    · rintro r ⟨⟩
      exact ⟨hid, by simpa using hother⟩
    · rintro r ⟨⟩

theorem maintenance_confirmReplacement (command : OrderedRegistrationCommand) (event : Event)
    (payload : CharacterWishPayload) (identities : List BotIdentity) (alreadyApplied : Bool) :
    makes legal (Call.IsMaintenance legal) (fun replacement => ∀ r ∈ replacement,
        some r.event.eventId = payload.replacedEventId ∧ r.event.eventId ≠ event.eventId)
      (confirmReplacement bot command event payload identities alreadyApplied) := by
  unfold confirmReplacement
  split
  · exact (makes_refuseIf _ _).bind fun _ _ => by rintro r ⟨⟩
  · refine (maintenance_playerRegistrationsOnDate bot _ _ _ _ _).bind fun _ _ => ?_
    refine (makes_refuseIf _ _).bind fun _ _ => (makes_refuseIf _ _).bind fun _ _ => ?_
    split
    · rintro r ⟨⟩
    · next replacedEventId hnamed =>
      refine Makes.mono (maintenance_namedReplacement bot command event identities alreadyApplied
        replacedEventId) (fun _ _ h => h) (fun _ h => h) fun replacement h r hr => ?_
      exact ⟨by rw [hnamed, (h r hr).1], (h r hr).2⟩

theorem maintenance_refreshReplaced (replacement : Option Replacement) :
    makes legal (Call.IsMaintenance legal) (fun _ => True) (refreshReplaced bot replacement) := by
  unfold refreshReplaced
  split
  · trivial
  · exact (maintenance_refreshWithRows bot _).bind fun _ _ => maintenance_refreshPassTable bot _ _

end Maintenance

end LarpBot
