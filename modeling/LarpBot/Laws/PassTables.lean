import LarpBot.Laws.LinkedProfiles
import LarpBot.Laws.EventPages
import LarpBot.Laws.Maintenance

/-!
# The pass tables

A person is a profile with the one that is linked with it. The table of a day has each person once who
takes part in a game of the day and whose latest profile has pass details to show
(`daily_pass_complete`). The table of one game is put together from the profiles one by one, so the two
agree as long as no person takes part by the earlier of two profiles in a way that shows
(`event_pass_agrees_iff`).
-/

namespace LarpBot

open Atomic Act Paging

section Walk

variable {admits : Input → Prop} {w : World}

/-- A read for each member. -/
theorem does_traverse_map {α β : Type} {X : Failure → World → Prop} {f : α → Act β} (g : α → β)
    {as : List α} (hf : ∀ a ∈ as, does admits (fun b w' => w' = w ∧ b = g a) X (f a) w) :
    does admits (fun bs w' => w' = w ∧ bs = as.map g) X (Prog.traverse f as) w := by
  refine does_mono (does_traverse (P := fun seen bs w' => w' = w ∧ bs = seen.map g) ?_ ⟨rfl, rfl⟩)
    (fun _ _ h => h) fun _ _ h => h
  rintro seen bs a ha w' ⟨rfl, rfl⟩
  refine does_mono (hf a ha) ?_ fun _ _ h => h
  rintro b w' ⟨rfl, rfl⟩
  exact ⟨rfl, by simp⟩

/-- The walk over the unarchived events, from a cursor on. -/
theorem does_scanPages {budget : Nat} {cursor : Paging.Cursor (Time ×ₗ EventId)}
    {after : Option (Time × EventId)} {rest : List Event}
    (hpage : ∀ n, page Events.pageKey n (eventListing w.events 0 none (some false)) cursor = rest.take n)
    (hforth : cursor.before? = none) (hafter : after.map toLex = cursor.after?)
    (hrest : rest <:+ eventListing w.events 0 none (some false)) :
    does admits (fun found w' => w' = w ∧ found = rest) (fun _ w' => w' = w ∧ budget ≤ rest.length)
      (scanPages (fun page => return page) budget after) w := by
  induction budget generalizing cursor after rest with
  | zero => exact ⟨rfl, Nat.zero_le _⟩
  | succ budget ih =>
    have hsize : 1 ≤ maxEventPageSize ∧ maxEventPageSize ≤ 10 := by decide
    have hfetch := listPageBy_eq w.events 0 none (some false) hsize cursor
    rw [hforth, hpage, ← hafter, ← Events.listPage_eq_listPageBy] at hfetch
    have hsplit := List.take_append_drop maxEventPageSize rest
    refine does_events fun _ => does_value hfetch ?_
    refine does_seq (R := fun seen w' => w' = w ∧ seen = rest.take maxEventPageSize)
      (Y := fun _ _ => False) ⟨rfl, rfl⟩ (fun _ _ h => h.elim) ?_
    rintro seen w' ⟨rfl, rfl⟩
    cases hlast : (rest.take maxEventPageSize).getLast? with
    | none =>
      have hnil := (List.take_eq_nil_iff.mp (List.getLast?_eq_none_iff.mp hlast)).resolve_left (by decide)
      subst hnil
      exact ⟨rfl, rfl⟩
    | some last =>
      dsimp only
      by_cases hshort : (rest.take maxEventPageSize).length < maxEventPageSize
      · rw [if_pos hshort]
        refine ⟨rfl, ?_⟩
        rw [List.length_take] at hshort
        exact List.take_of_length_le (by omega)
      · rw [if_neg hshort]
        have hcut := later_of_take (ascends_listing _ _ _ _) hrest hlast
        have hpos := List.length_pos_of_mem (List.mem_of_mem_take (List.mem_of_getLast? hlast))
        have hpage' : ∀ n, page Events.pageKey n (eventListing w'.events 0 none (some false))
            (.after (Events.pageKey last)) = (rest.drop maxEventPageSize).take n :=
          fun n => by rw [page, hcut]
        refine does_seq (ih hpage' rfl rfl ((List.drop_suffix _ rest).trans hrest)) ?_ ?_
        · rintro e w'' ⟨rfl, hle⟩
          rw [List.length_drop] at hle
          exact ⟨rfl, by omega⟩
        · rintro found w'' ⟨rfl, rfl⟩
          exact ⟨rfl, hsplit⟩

/-- All unarchived events. -/
theorem does_unarchivedEvents (bot : Deployment) :
    does admits (fun found w' => w' = w ∧ found = eventListing w.events 0 none (some false))
      (fun _ w' => w' = w ∧ bot.pageBudget ≤ w.events.rows.length) (unarchivedEvents bot) w := by
  have hpage : ∀ n, page Events.pageKey n (eventListing w.events 0 none (some false)) .start =
      (eventListing w.events 0 none (some false)).take n := fun _ => rfl
  exact does_mono (does_scanPages hpage rfl rfl List.suffix_rfl) (fun _ _ h => h)
    fun _ _ h => ⟨h.1, h.2.trans length_listing_le⟩

end Walk

/-! ## Persons -/

namespace Users

/-- Two profiles of one person. -/
def SamePerson (users : Users) (user other : User) : Prop :=
  other = user ∨ users.findLinked user = some other

section Persons

variable {users : Users} {user other third : User}

theorem SamePerson.mem (h : users.SamePerson user other) (huser : user ∈ users.rows) :
    other ∈ users.rows := by
  rcases h with rfl | hlinked
  · exact huser
  · exact (findLinked_symm huser hlinked).1

theorem SamePerson.symm (h : users.SamePerson user other) (huser : user ∈ users.rows) :
    users.SamePerson other user := by
  rcases h with rfl | hlinked
  · exact .inl rfl
  · exact .inr (findLinked_symm huser hlinked).2.1

theorem SamePerson.trans (h : users.SamePerson user other) (h' : users.SamePerson other third)
    (huser : user ∈ users.rows) : users.SamePerson user third := by
  rcases h with rfl | hlinked
  · exact h'
  · rcases h' with rfl | hlinked'
    · exact .inr hlinked
    · have hback := (findLinked_symm huser hlinked).2.1
      exact .inl (Option.some.inj (hlinked'.symm.trans hback))

theorem mem_group : other ∈ user :: (users.findLinked user).toList ↔ users.SamePerson user other := by
  rw [List.mem_cons, Option.mem_toList]
  rfl

theorem latest_eq_of_samePerson (h : users.SamePerson user other) (huser : user ∈ users.rows) :
    users.latest other = users.latest user := by
  rcases h with rfl | hlinked
  · rfl
  · exact latest_linked huser hlinked

theorem samePerson_latest (users : Users) (user : User) : users.SamePerson user (users.latest user) := by
  unfold latest
  cases hlinked : users.findLinked user with
  | none => exact .inl rfl
  | some linked =>
    dsimp only [currentProfile]
    split
    · exact .inr hlinked
    · exact .inl rfl

theorem latest_latest (huser : user ∈ users.rows) :
    users.latest (users.latest user) = users.latest user :=
  latest_eq_of_samePerson (users.samePerson_latest user) huser

/-- One profile of each person leads. -/
theorem exists_leads (huser : user ∈ users.rows) :
    ∃ first ∈ users.rows, users.SamePerson user first ∧ users.leads first = true := by
  by_cases hleads : users.leads user = true
  · exact ⟨user, huser, .inl rfl, hleads⟩
  · cases hlinked : users.findLinked user with
    | none => exact absurd (by simp [leads, hlinked]) hleads
    | some linked =>
      have hother := leads_linked huser hlinked
      refine ⟨linked, (findLinked_symm huser hlinked).1, .inr hlinked, ?_⟩
      simpa [hleads] using hother

theorem eq_of_leads (huser : user ∈ users.rows) (h : users.SamePerson user other)
    (hleads : users.leads user = true) (hleads' : users.leads other = true) : other = user := by
  rcases h with rfl | hlinked
  · rfl
  · have hapart := leads_linked huser hlinked
    rw [hleads, hleads'] at hapart
    exact absurd hapart (by decide)

end Persons

end Users

/-- The latest profile of a person that has something to show. -/
def User.showsPass (user : User) : Bool :=
  user.base.needsPass = some true && user.base.passDetails.isSome

namespace Users

/-- The profiles that the list of a day shows. -/
def dayProfiles (users : Users) (belongs : BotIdentity → Bool) : List User :=
  (users.rows.filter fun user => users.leads user &&
    ((user :: (users.findLinked user).toList).map User.identity).any belongs &&
    (users.latest user).showsPass).map users.latest

section DayProfiles

variable {users : Users} {belongs : BotIdentity → Bool} {user : User}

theorem mem_dayProfiles : user ∈ users.dayProfiles belongs ↔ ∃ first ∈ users.rows,
    users.leads first = true ∧ (∃ profile, users.SamePerson first profile ∧
      belongs profile.identity = true) ∧ user.showsPass = true ∧ users.latest first = user := by
  simp only [dayProfiles, List.mem_map, List.mem_filter, Bool.and_eq_true, List.any_map,
    List.any_eq_true, Function.comp_apply, mem_group]
  constructor
  · rintro ⟨first, ⟨hfirst, ⟨hleads, hbelongs⟩, hshows⟩, rfl⟩
    exact ⟨first, hfirst, hleads, hbelongs, hshows, rfl⟩
  · rintro ⟨first, hfirst, hleads, hbelongs, hshows, rfl⟩
    exact ⟨first, ⟨hfirst, ⟨hleads, hbelongs⟩, hshows⟩, rfl⟩

theorem filterMap_dayDetails : (users.rows.filter users.leads).filterMap (users.dayDetails belongs) =
    (users.dayProfiles belongs).filterMap (·.base.passDetails) := by
  unfold dayProfiles
  rw [List.filterMap_map, List.filterMap_filter, List.filterMap_filter]
  apply List.filterMap_congr
  intro user _
  unfold dayDetails User.showsPass
  cases users.leads user with
  | false => simp
  | true =>
    cases ((user :: (users.findLinked user).toList).map User.identity).any belongs with
    | false => simp
    | true =>
      cases hdetails : (users.latest user).base.passDetails <;> simp [hdetails]

theorem map_some_filterMap {profiles : List User} (h : ∀ user ∈ profiles, user.showsPass = true) :
    (profiles.filterMap (·.base.passDetails)).map some = profiles.map (·.base.passDetails) := by
  induction profiles with
  | nil => rfl
  | cons user profiles ih =>
    have hshows := h user List.mem_cons_self
    rw [User.showsPass, Bool.and_eq_true] at hshows
    obtain ⟨details, hdetails⟩ := Option.isSome_iff_exists.mp hshows.2
    simp only [List.filterMap_cons, List.map_cons, hdetails]
    rw [ih fun other hother => h other (List.mem_cons_of_mem user hother)]

theorem dayProfiles_latest (h : user ∈ users.dayProfiles belongs) :
    user ∈ users.rows ∧ users.latest user = user := by
  obtain ⟨first, hfirst, -, -, -, rfl⟩ := mem_dayProfiles.mp h
  exact ⟨(users.samePerson_latest first).mem hfirst, latest_latest hfirst⟩

/-- Nobody is on the list of a day twice. -/
theorem dayProfiles_pairwise : (users.dayProfiles belongs).Pairwise fun user other =>
    ¬ users.SamePerson user other := by
  unfold dayProfiles
  rw [List.pairwise_map]
  have hnodup := users.rows_nodup.filter fun user => users.leads user &&
    ((user :: (users.findLinked user).toList).map User.identity).any belongs &&
    (users.latest user).showsPass
  refine hnodup.imp_of_mem ?_
  intro first second hfirst hsecond hne hsame
  simp only [List.mem_filter, Bool.and_eq_true] at hfirst hsecond
  have hlatest := users.samePerson_latest first
  have hback := (users.samePerson_latest second).symm hsecond.1
  have hjoined := (hlatest.trans hsame hfirst.1).trans hback hfirst.1
  exact hne (eq_of_leads hfirst.1 hjoined hfirst.2.1.1 hsecond.2.1.1).symm

/-- Who is on the list of a day. -/
theorem dayProfiles_iff (huser : user ∈ users.rows) :
    (∃ chosen ∈ users.dayProfiles belongs, users.SamePerson user chosen) ↔
      (∃ profile, users.SamePerson user profile ∧ belongs profile.identity = true) ∧
        (users.latest user).showsPass = true := by
  constructor
  · rintro ⟨chosen, hchosen, hsame⟩
    obtain ⟨first, hfirst, -, ⟨profile, hprofile, hbelongs⟩, hshows, rfl⟩ := mem_dayProfiles.mp hchosen
    have hback := (users.samePerson_latest first).symm hfirst
    have hjoined := hsame.trans hback huser
    rw [latest_eq_of_samePerson hjoined huser] at hshows
    exact ⟨⟨profile, hjoined.trans hprofile huser, hbelongs⟩, hshows⟩
  · rintro ⟨⟨profile, hprofile, hbelongs⟩, hshows⟩
    obtain ⟨first, hfirst, hsame, hleads⟩ := exists_leads huser
    have hlatest := latest_eq_of_samePerson hsame huser
    refine ⟨users.latest user, mem_dayProfiles.mpr ⟨first, hfirst, hleads, ?_, hshows, hlatest⟩,
      users.samePerson_latest user⟩
    exact ⟨profile, (hsame.symm huser).trans hprofile hfirst, hbelongs⟩

end DayProfiles

end Users

/-! ## The table of a day -/

/-- An identity leads a game or has an active row in it. -/
def takesPart (bot : Deployment) (w : World) (eventId : EventId) (identity : BotIdentity) : Bool :=
  identity ∈ w.leaders.listLeaders eventId ||
    (w.registrations.listForEvent eventId).any fun row =>
      isActive row && row.participantKey = bot.keyOf identity eventId

/-- What the table of a day shows of a world: each person once, by the latest profile, who takes part
in an unarchived game of the day and whose latest profile has a pass to show. -/
def DayTable (bot : Deployment) (w : World) (gameDate : GameDate) (profiles : List PassDetails) : Prop :=
  ∃ chosen : List User, profiles.map some = chosen.map (·.base.passDetails) ∧
    (∀ user ∈ chosen, user ∈ w.users.rows ∧ w.users.latest user = user) ∧
    (chosen.Pairwise fun user other => ¬ w.users.SamePerson user other) ∧
    ∀ user ∈ w.users.rows, (∃ other ∈ chosen, w.users.SamePerson user other) ↔
      (∃ profile, w.users.SamePerson user profile ∧ ∃ event ∈ w.events.rows,
        event.archivedAt = none ∧ event.gameDate = some gameDate ∧
        takesPart bot w event.eventId profile.identity = true) ∧
      (w.users.latest user).base.needsPass = some true ∧
      (w.users.latest user).base.passDetails.isSome = true

section Day

variable {bot : Deployment} {admits : Input → Prop} {w : World} {gameDate : GameDate}

/-- The events of a day. -/
def dayEventsOf (w : World) (gameDate : GameDate) : List Event :=
  (eventListing w.events 0 none (some false)).filter (·.gameDate = some gameDate)

theorem mem_dayEventsOf {event : Event} : event ∈ dayEventsOf w gameDate ↔
    event ∈ w.events.rows ∧ event.archivedAt = none ∧ event.gameDate = some gameDate := by
  simp [dayEventsOf, eventListing, Events.ListQuery.admits]
  tauto

/-- The events of a day after maintenance are those before it. -/
theorem mem_day_ids {w' : World} (h : Maintains w w') {eventId : EventId} :
    eventId ∈ (dayEventsOf w gameDate).map Event.eventId ↔ ∃ event ∈ w'.events.rows,
      event.archivedAt = none ∧ event.gameDate = some gameDate ∧ event.eventId = eventId := by
  have hcarry : ∀ {rows rows' : List Event}, rows'.map Event.core = rows.map Event.core →
      (∃ event ∈ rows, event.archivedAt = none ∧ event.gameDate = some gameDate ∧
        event.eventId = eventId) →
      ∃ event ∈ rows', event.archivedAt = none ∧ event.gameDate = some gameDate ∧
        event.eventId = eventId := by
    rintro rows rows' hcore ⟨event, hevent, harchived, hdate, hid⟩
    have hmem : event.core ∈ rows'.map Event.core := hcore ▸ List.mem_map_of_mem hevent
    obtain ⟨event', hevent', hsame⟩ := List.mem_map.mp hmem
    exact ⟨event', hevent', (congrArg Event.archivedAt hsame).trans harchived,
      (congrArg Event.gameDate hsame).trans hdate, (congrArg Event.eventId hsame).trans hid⟩
  have hbefore : eventId ∈ (dayEventsOf w gameDate).map Event.eventId ↔ ∃ event ∈ w.events.rows,
      event.archivedAt = none ∧ event.gameDate = some gameDate ∧ event.eventId = eventId := by
    simp only [List.mem_map, mem_dayEventsOf, and_assoc]
  rw [hbefore]
  exact ⟨hcarry h.events, hcarry h.events.symm⟩

/-- The profiles of the table of a day. -/
def dayTable (bot : Deployment) (w : World) (gameDate : GameDate) : List User :=
  w.users.dayProfiles fun identity =>
    ((dayEventsOf w gameDate).map Event.eventId).any (takesPart bot w · identity)

theorem dayTable_of_ids {ids : List EventId}
    (hids : ∀ eventId, eventId ∈ ids ↔ eventId ∈ (dayEventsOf w gameDate).map Event.eventId) :
    (w.users.dayProfiles fun identity => ids.any (takesPart bot w · identity)) =
      dayTable bot w gameDate := by
  have hbelongs : (fun identity => ids.any (takesPart bot w · identity)) = fun identity =>
      ((dayEventsOf w gameDate).map Event.eventId).any (takesPart bot w · identity) := by
    funext identity
    rw [Bool.eq_iff_iff, List.any_eq_true, List.any_eq_true]
    simp only [hids]
  rw [hbelongs, dayTable]

theorem dayTable_nil (h : dayEventsOf w gameDate = []) : dayTable bot w gameDate = [] := by
  apply List.eq_nil_iff_forall_not_mem.mpr
  intro user huser
  obtain ⟨_, _, _, ⟨_, _, hbelongs⟩, _⟩ := Users.mem_dayProfiles.mp huser
  rw [h] at hbelongs
  exact Bool.false_ne_true hbelongs

theorem dayTable_spec : DayTable bot w gameDate
    ((dayTable bot w gameDate).filterMap (·.base.passDetails)) := by
  refine ⟨dayTable bot w gameDate, Users.map_some_filterMap ?_, fun user => Users.dayProfiles_latest,
    Users.dayProfiles_pairwise, fun user huser => ?_⟩
  · intro user huser
    obtain ⟨-, -, -, -, hshows, -⟩ := Users.mem_dayProfiles.mp huser
    exact hshows
  · rw [dayTable, Users.dayProfiles_iff huser, User.showsPass, Bool.and_eq_true, decide_eq_true_eq]
    simp only [List.any_map, List.any_eq_true, Function.comp_apply, mem_dayEventsOf, and_assoc]

/-- What follows the migration of the events of a day. -/
theorem does_dayProfiles {dayEvents : List Event} {Q : List Event × List PassDetails → World → Prop}
    {X : Failure → World → Prop}
    (h : Q (dayEvents, (w.users.dayProfiles fun identity =>
      (dayEvents.map Event.eventId).any (takesPart bot w · identity)).filterMap (·.base.passDetails)) w) :
    does admits Q X (do
      let rows ← Prog.traverse (fun event => registrations (.listForEvent event.eventId)) dayEvents
      let leaders ← Prog.traverse (fun event => listLeaders event.eventId) dayEvents
      let profiles ← users .listAll
      let linked ← Prog.traverse (fun user => users (.findLinked user)) profiles
      let belongs (identity : BotIdentity) : Bool :=
        (dayEvents.zip (rows.zip leaders)).any fun (event, rows, leaders) =>
          identity ∈ leaders || rows.any fun row =>
            isActive row && row.participantKey = bot.keyOf identity event.eventId
      return (dayEvents, dailyProfiles belongs [] (profiles.zip linked))) w := by
  refine does_seq (does_traverse_map (X := fun _ _ => False)
    (fun event => w.registrations.listForEvent event.eventId) fun event _ => ?_)
    (fun _ _ h => h.elim) ?_
  · exact does_one (c := .registrations (.listForEvent event.eventId)) fun _ _ => ⟨rfl, rfl⟩
  rintro rows w' ⟨rfl, rfl⟩
  refine does_seq (does_traverse_map (X := fun _ _ => False)
    (fun event => w'.leaders.listLeaders event.eventId) fun event _ => ?_) (fun _ _ h => h.elim) ?_
  · exact does_one (c := .listLeaders event.eventId) fun _ _ => ⟨rfl, rfl⟩
  rintro leaders w'' ⟨rfl, rfl⟩
  refine does_users fun _ => ?_
  show does admits Q X (_ >>= _) w''
  refine does_seq (does_traverse_map (X := fun _ _ => False) w''.users.findLinked fun user _ => ?_)
    (fun _ _ h => h.elim) ?_
  · exact does_one (c := .users (.findLinked user)) fun _ _ => ⟨rfl, rfl⟩
  rintro linked w₃ ⟨rfl, rfl⟩
  have hbelongs : (fun identity => (dayEvents.zip ((dayEvents.map fun event =>
      w₃.registrations.listForEvent event.eventId).zip (dayEvents.map fun event =>
      w₃.leaders.listLeaders event.eventId))).any fun (event, rows, leaders) =>
        decide (identity ∈ leaders) || rows.any fun row =>
          isActive row && decide (row.participantKey = bot.keyOf identity event.eventId)) =
      fun identity => (dayEvents.map Event.eventId).any (takesPart bot w₃ · identity) := by
    funext identity
    rw [List.zip_map', ← List.map_prod_left_eq_zip, List.any_map, List.any_map]
    rfl
  have hnone : w₃.users.Seen [] [] := by simp [Users.Seen]
  have hprofiles := Users.dailyProfiles_eq (fun identity =>
    (dayEvents.map Event.eventId).any (takesPart bot w₃ · identity)) hnone rfl
  rw [Users.filterMap_dayDetails, List.map_prod_left_eq_zip] at hprofiles
  show Q (dayEvents, dailyProfiles (fun identity => _) []
    (w₃.users.rows.zip (w₃.users.rows.map w₃.users.findLinked))) w₃
  rw [hbelongs, hprofiles]
  exact h

/-- Migration before the table: the same events by their ids, in a maintained world. -/
theorem does_migrations (bot : Deployment) (dated : List Event) :
    does admits (fun dayEvents w' => Maintains w w' ∧
        dayEvents.map Event.eventId = dated.map Event.eventId) (fun _ _ => True)
      (Prog.traverse (ensureMigrated bot) dated) w := by
  refine does_mono (does_traverse (P := fun seen dayEvents w' => Maintains w w' ∧
    dayEvents.map Event.eventId = seen.map Event.eventId) (X := fun _ _ => True) ?_
    ⟨.refl w, rfl⟩) (fun _ _ h => h) fun _ _ h => h
  rintro seen dayEvents event - w' ⟨hmaintains, hids⟩
  have hstored : Legal.stored anyWorkbook event := trivial
  refine does_mono (does_maintenance (maintenance_ensureMigrated bot hstored)) ?_ fun _ _ _ => trivial
  rintro event' w'' ⟨hmaintains', hfollows⟩
  exact ⟨hmaintains.trans hmaintains', by simp [hids, hfollows.id]⟩

/-- Events that were migrated are only looked at. -/
theorem does_migrated (bot : Deployment) {dated : List Event}
    (hmigrated : ∀ event ∈ dated, event.registrationsMigratedAt.isSome = true) :
    does admits (fun dayEvents w' => w' = w ∧ dayEvents = dated) (fun _ _ => False)
      (Prog.traverse (ensureMigrated bot) dated) w := by
  refine does_mono (does_traverse_map (X := fun _ _ => False) id fun event hevent => ?_)
    (by rintro _ _ ⟨rfl, rfl⟩; exact ⟨rfl, List.map_id _⟩) fun _ _ h => h
  unfold ensureMigrated
  rw [if_pos (hmigrated event hevent)]
  exact ⟨rfl, rfl⟩

theorem does_dailyPassProfiles (bot : Deployment) (gameDate : GameDate) :
    does admits (fun answer w' => Maintains w w' ∧
        answer.2 = (dayTable bot w' gameDate).filterMap (·.base.passDetails))
      (fun _ _ => True) (dailyPassProfiles bot gameDate) w := by
  refine does_seq (does_unarchivedEvents bot) (fun _ _ _ => trivial) ?_
  rintro unarchived w' ⟨rfl, rfl⟩
  change does admits _ _ (if (dayEventsOf w' gameDate).isEmpty then _ else _) w'
  split
  · next hempty => exact ⟨.refl w', by rw [dayTable_nil (List.isEmpty_iff.mp hempty)]; rfl⟩
  · refine does_seq (does_migrations bot (dayEventsOf w' gameDate)) (fun _ _ _ => trivial) ?_
    rintro dayEvents w'' ⟨hmaintains, hids⟩
    refine does_dayProfiles ⟨hmaintains, ?_⟩
    rw [dayTable_of_ids fun eventId => ?_]
    rw [hids, mem_day_ids hmaintains, mem_day_ids (.refl w'')]

theorem does_dailyPassProfiles_migrated (bot : Deployment) (gameDate : GameDate)
    (hbudget : w.events.rows.length < bot.pageBudget)
    (hmigrated : ∀ event ∈ dayEventsOf w gameDate, event.registrationsMigratedAt.isSome = true) :
    does admits (fun answer w' => w' = w ∧
        answer.2 = (dayTable bot w gameDate).filterMap (·.base.passDetails))
      (fun _ _ => False) (dailyPassProfiles bot gameDate) w := by
  refine does_seq (does_unarchivedEvents bot) (fun _ _ h => by omega) ?_
  rintro unarchived w' ⟨rfl, rfl⟩
  change does admits _ _ (if (dayEventsOf w' gameDate).isEmpty then _ else _) w'
  split
  · next hempty => exact ⟨rfl, by rw [dayTable_nil (List.isEmpty_iff.mp hempty)]; rfl⟩
  · refine does_seq (does_migrated bot hmigrated) (fun _ _ h => h) ?_
    rintro dayEvents w'' ⟨rfl, rfl⟩
    exact does_dayProfiles ⟨rfl, rfl⟩

end Day

/-- The table of a day, whatever the outside answers: it shows the world in which it was computed, and
it is computed if the games of the day are migrated and the budget of pages reaches over all events. -/
theorem daily_pass_complete (bot : Deployment) (w : World) (s : Nat → Input) (gameDate : GameDate) :
    (∀ answer, ((dailyPassProfiles bot gameDate).run storage s w).1 = .ok answer →
      Maintains w ((dailyPassProfiles bot gameDate).run storage s w).2.2 ∧
      DayTable bot ((dailyPassProfiles bot gameDate).run storage s w).2.2 gameDate answer.2) ∧
    (w.events.rows.length < bot.pageBudget →
      (∀ event ∈ w.events.rows, event.archivedAt = none → event.gameDate = some gameDate →
        event.registrationsMigratedAt.isSome = true) →
      ∃ answer, ((dailyPassProfiles bot gameDate).run storage s w).1 = .ok answer ∧
        ((dailyPassProfiles bot gameDate).run storage s w).2.2 = w ∧
        DayTable bot w gameDate answer.2) := by
  constructor
  · intro answer hanswer
    have hdoes : does (fun _ => True) _ _ (dailyPassProfiles bot gameDate) w :=
      does_dailyPassProfiles bot gameDate
    obtain ⟨hmaintains, htable⟩ := (run_of_does hdoes fun _ => trivial).1 answer hanswer
    rw [htable]
    exact ⟨hmaintains, dayTable_spec⟩
  · intro hbudget hmigrated
    have hmigrated' : ∀ event ∈ dayEventsOf w gameDate, event.registrationsMigratedAt.isSome = true := by
      intro event hevent
      obtain ⟨hmem, harchived, hdate⟩ := mem_dayEventsOf.mp hevent
      exact hmigrated event hmem harchived hdate
    have hdoes : does (fun _ => True) _ _ (dailyPassProfiles bot gameDate) w :=
      does_dailyPassProfiles_migrated bot gameDate hbudget hmigrated'
    obtain ⟨hok, herror⟩ := run_of_does hdoes (s := s) fun _ => trivial
    cases hrun : ((dailyPassProfiles bot gameDate).run storage s w).1 with
    | ok answer =>
      obtain ⟨hsame, htable⟩ := hok answer hrun
      rw [hsame]
      exact ⟨answer, rfl, rfl, htable ▸ dayTable_spec⟩
    | error e => exact (herror e hrun).elim

def passGame : Event where
  eventId := "game"
  name := "Игра"
  gameDate := some ⟨2025, 5, 1⟩
  registrationsMigratedAt := some 0

def passport (email : String) : PassDetails where
  surnameCyrillic := "Иванов"
  nameCyrillic := "Иван"
  patronymCyrillic := ""
  foreigner := false
  surnameLatin := none
  nameLatin := none
  patronymLatin := none
  mobilePhone := "+79000000000"
  email := email

/-- A person with two profiles: signed up by one of them and a master by the other one. -/
def twoPassengers : Users :=
  Table.ofList [
    .telegram { tgId := 1, linkedVkId := some 10, telegramHandle := some "@player_one",
                needsPass := some true, passDetails := some (passport "old@example.org") },
    .vk { vkId := 10, telegramHandle := some "@player_one", updatedAt := 5,
          needsPass := some true, passDetails := some (passport "new@example.org") }]

def twoPassengersWorld : World where
  users := twoPassengers
  events := Table.ofList [passGame]
  leaders := Table.ofList [("game", ⟨.vk, 10⟩)]
  registrations := Table.ofList
    [{ eventId := "game", participantKey := "telegram:1:game", displayName := "Иванов Иван", wishPlay := "" }]

/-- The person is in the table of the day once, by the later profile. -/
theorem twoPassengers_daily : ∃ answer,
    ((dailyPassProfiles sampleBot ⟨2025, 5, 1⟩).run storage (fun _ => answering fun _ _ => .accepted)
      twoPassengersWorld).1 = .ok answer ∧
    answer.2 = [passport "new@example.org"] ∧ DayTable sampleBot twoPassengersWorld ⟨2025, 5, 1⟩ answer.2 := by
  obtain ⟨answer, hanswer, -, htable⟩ := (daily_pass_complete sampleBot twoPassengersWorld
    (fun _ => answering fun _ _ => .accepted) ⟨2025, 5, 1⟩).2 (by decide) (by decide +kernel)
  have hlisted : (((dailyPassProfiles sampleBot ⟨2025, 5, 1⟩).run storage
      (fun _ => answering fun _ _ => .accepted) twoPassengersWorld).1.toOption.map Prod.snd) =
      some [passport "new@example.org"] := by
    decide +kernel
  rw [hanswer] at hlisted
  exact ⟨answer, hanswer, Option.some.inj hlisted, htable⟩

/-- A user who asks for a pass and has given no details, a game and the user's row in it. -/
def plainPassenger : User :=
  .telegram { tgId := 5, needsPass := some true }

def plainWorld : World where
  users := Table.ofList [plainPassenger]
  events := Table.ofList [passGame]
  registrations := Table.ofList
    [{ eventId := "game", participantKey := "telegram:5:game", displayName := "Иванов Иван", wishPlay := "" }]

/-- A pass without details cannot be listed. -/
theorem plainPassenger_missing : ∃ (bot : Deployment) (w : World) (s : Nat → Input) (gameDate : GameDate)
    (user : User) (answer : List Event × List PassDetails),
    ((dailyPassProfiles bot gameDate).run storage s w).1 = .ok answer ∧ answer.2 = [] ∧
      ((dailyPassProfiles bot gameDate).run storage s w).2.2 = w ∧ user ∈ w.users.rows ∧
      (∃ event ∈ w.events.rows, event.archivedAt = none ∧ event.gameDate = some gameDate ∧
        takesPart bot w event.eventId user.identity = true) ∧
      (w.users.latest user).base.needsPass = some true := by
  refine ⟨sampleBot, plainWorld, fun _ => answering fun _ _ => .accepted, ⟨2025, 5, 1⟩, plainPassenger, ?_⟩
  have hdoes : does (fun _ => True) _ _ (dailyPassProfiles sampleBot ⟨2025, 5, 1⟩) plainWorld :=
    does_dailyPassProfiles_migrated sampleBot ⟨2025, 5, 1⟩ (by decide) (by decide +kernel)
  have htable : (dayTable sampleBot plainWorld ⟨2025, 5, 1⟩).filterMap (·.base.passDetails) = [] := by
    decide +kernel
  obtain ⟨hok, herror⟩ := run_of_does hdoes (s := fun _ => answering fun _ _ => .accepted) fun _ => trivial
  cases hrun : ((dailyPassProfiles sampleBot ⟨2025, 5, 1⟩).run storage
      (fun _ => answering fun _ _ => .accepted) plainWorld).1 with
  | error e => exact (herror e hrun).elim
  | ok answer =>
    obtain ⟨hsame, hanswer⟩ := hok answer hrun
    exact ⟨answer, rfl, hanswer.trans htable, hsame, by decide +kernel⟩

/-! ## The table of one game -/

/-- The profiles that the table of one game is put together from. -/
def eventTable (bot : Deployment) (w : World) (eventId : EventId) : List User :=
  w.users.rows.filter fun user => user.showsPass && takesPart bot w eventId user.identity

/-- No other unarchived game is on the day of this one. -/
def OnlyGame (w : World) (event : Event) (gameDate : GameDate) : Prop :=
  event ∈ dayEventsOf w gameDate ∧ ∀ other ∈ dayEventsOf w gameDate, other.eventId = event.eventId

/-- The table of a game counts persons as that of the day does. -/
structure EventTableMeets (bot : Deployment) (w : World) (event : Event) : Prop where
  once : (eventTable bot w event.eventId).Pairwise fun user other => ¬ w.users.SamePerson user other
  profile : ∀ user ∈ eventTable bot w event.eventId, w.users.latest user = user
  day : ∀ gameDate, OnlyGame w event gameDate → ∀ user ∈ w.users.rows,
    (∃ other ∈ eventTable bot w event.eventId, w.users.SamePerson user other) ↔
      ∃ other ∈ dayTable bot w gameDate, w.users.SamePerson user other

/-- Whoever takes part by the earlier of two profiles does not show a pass by it, and, in the only game
of its day, takes part by the later one too if that one shows a pass. -/
def EarlierHidden (bot : Deployment) (w : World) (event : Event) : Prop :=
  ∀ earlier ∈ w.users.rows, ∀ later, w.users.findLinked earlier = some later →
    w.users.latest earlier = later → takesPart bot w event.eventId earlier.identity = true →
    earlier.showsPass = false ∧ ∀ gameDate, OnlyGame w event gameDate → later.showsPass = true →
      takesPart bot w event.eventId later.identity = true

section OneGame

variable {bot : Deployment} {w : World} {event : Event} {user other : User}

theorem mem_eventTable {eventId : EventId} : user ∈ eventTable bot w eventId ↔
    user ∈ w.users.rows ∧ user.showsPass = true ∧ takesPart bot w eventId user.identity = true := by
  simp [eventTable]

/-- The profile of a person that is not the latest one is linked with the latest one. -/
theorem linked_latest (h : w.users.latest user ≠ user) :
    w.users.findLinked user = some (w.users.latest user) :=
  (w.users.samePerson_latest user).resolve_left h

theorem latest_of_hidden (h : EarlierHidden bot w event) (huser : user ∈ eventTable bot w event.eventId) :
    w.users.latest user = user := by
  obtain ⟨hmem, hshows, htakes⟩ := mem_eventTable.mp huser
  by_contra hne
  have hhidden := (h user hmem _ (linked_latest hne) rfl htakes).1
  rw [hshows] at hhidden
  exact absurd hhidden (by decide)

theorem mem_dayTable_iff {gameDate : GameDate} (honly : OnlyGame w event gameDate)
    (huser : user ∈ w.users.rows) :
    (∃ other ∈ dayTable bot w gameDate, w.users.SamePerson user other) ↔
      (∃ profile, w.users.SamePerson user profile ∧
        takesPart bot w event.eventId profile.identity = true) ∧
      (w.users.latest user).showsPass = true := by
  have hday : ∀ identity, ((dayEventsOf w gameDate).map Event.eventId).any
      (takesPart bot w · identity) = true ↔ takesPart bot w event.eventId identity = true := by
    intro identity
    simp only [List.any_map, List.any_eq_true, Function.comp_apply]
    constructor
    · rintro ⟨other, hother, htakes⟩
      rwa [honly.2 other hother] at htakes
    · exact fun htakes => ⟨event, honly.1, htakes⟩
  rw [dayTable, Users.dayProfiles_iff huser]
  simp only [hday]

theorem eventTableMeets_iff : EventTableMeets bot w event ↔ EarlierHidden bot w event := by
  constructor
  · intro h earlier hearlier later hlinked hlatest htakes
    have hne : later ≠ earlier := by
      rintro rfl
      exact (Users.findLinked_symm hearlier hlinked).2.2 rfl
    have hhidden : earlier ∉ eventTable bot w event.eventId := fun hmem =>
      hne (hlatest.symm.trans (h.profile earlier hmem))
    constructor
    · by_contra hshows
      exact hhidden (mem_eventTable.mpr ⟨hearlier, by simpa using hshows, htakes⟩)
    · intro gameDate honly hshows
      have hlisted := (mem_dayTable_iff honly hearlier).mpr
        ⟨⟨earlier, .inl rfl, htakes⟩, hlatest ▸ hshows⟩
      obtain ⟨other, hother, hsame⟩ := (h.day gameDate honly earlier hearlier).mpr hlisted
      rcases hsame with rfl | hother'
      · exact absurd hother hhidden
      · obtain rfl := Option.some.inj (hlinked.symm.trans hother')
        exact (mem_eventTable.mp hother).2.2
  · intro h
    have hprofile : ∀ user ∈ eventTable bot w event.eventId, w.users.latest user = user :=
      fun user huser => latest_of_hidden h huser
    refine ⟨?_, hprofile, ?_⟩
    · refine (w.users.rows_nodup.filter _).imp_of_mem ?_
      intro user other huser hother hne hsame
      have hlatest := Users.latest_eq_of_samePerson hsame (mem_eventTable.mp huser).1
      rw [hprofile user huser, hprofile other hother] at hlatest
      exact hne hlatest.symm
    · intro gameDate honly user huser
      rw [mem_dayTable_iff honly huser]
      constructor
      · rintro ⟨other, hother, hsame⟩
        obtain ⟨-, hshows, htakes⟩ := mem_eventTable.mp hother
        have hlatest := Users.latest_eq_of_samePerson hsame huser
        rw [hprofile other hother] at hlatest
        exact ⟨⟨other, hsame, htakes⟩, hlatest ▸ hshows⟩
      · rintro ⟨⟨profile, hsame, htakes⟩, hshows⟩
        have hmem := hsame.mem huser
        have hlatest := Users.latest_eq_of_samePerson hsame huser
        have hjoined := w.users.samePerson_latest user
        refine ⟨w.users.latest user, mem_eventTable.mpr ⟨hjoined.mem huser, hshows, ?_⟩, hjoined⟩
        by_cases hcurrent : w.users.latest profile = profile
        · rwa [← hlatest, hcurrent]
        · rw [← hlatest] at hshows ⊢
          exact (h profile hmem _ (linked_latest hcurrent) rfl htakes).2 gameDate honly hshows

/-- What the service puts into the table of a game. -/
theorem does_eventPassProfiles {admits : Input → Prop} (bot : Deployment) (event : Event) :
    does admits (fun profiles w' => w' = w ∧
        profiles = (eventTable bot w event.eventId).filterMap (·.base.passDetails))
      (fun _ _ => False) (eventPassProfiles bot event none) w := by
  refine does_listForEvent ?_
  refine does_users fun _ => does_call (c := .listLeaders event.eventId) fun _ _ => ?_
  refine ⟨rfl, ?_⟩
  show w.users.rows.filterMap _ = _
  rw [eventTable, List.filterMap_filter]
  apply List.filterMap_congr
  intro user _
  have htakes : (decide (bot.keyOf user.identity event.eventId ∈
      ((w.registrations.listForEvent event.eventId).filter isActive).map Registration.participantKey) ||
        decide (user.identity ∈ w.leaders.listLeaders event.eventId)) =
      takesPart bot w event.eventId user.identity := by
    rw [takesPart, Bool.or_comm]
    congr 1
    rw [Bool.eq_iff_iff]
    simp [and_assoc]
  rw [← htakes]
  unfold User.showsPass
  cases user.base.passDetails with
  | none => simp
  | some details =>
    rw [Option.isSome_some, Bool.and_true]
    rfl

end OneGame

/-- The table of a game and that of its day: what the service puts into either, and that the first one
counts persons as the second one does if and only if no earlier profile comes to light. -/
theorem event_pass_agrees_iff (bot : Deployment) (w : World) (s : Nat → Input) (event : Event) :
    ((eventPassProfiles bot event none).run storage s w).1 =
        .ok ((eventTable bot w event.eventId).filterMap (·.base.passDetails)) ∧
    (∀ gameDate, w.events.rows.length < bot.pageBudget →
      (∀ other ∈ dayEventsOf w gameDate, other.registrationsMigratedAt.isSome = true) →
      ∃ dayEvents, ((dailyPassProfiles bot gameDate).run storage s w).1 =
        .ok (dayEvents, (dayTable bot w gameDate).filterMap (·.base.passDetails))) ∧
    (EventTableMeets bot w event ↔ EarlierHidden bot w event) := by
  refine ⟨?_, ?_, eventTableMeets_iff⟩
  · have hdoes : does (fun _ => True) _ _ (eventPassProfiles bot event none) w :=
      does_eventPassProfiles bot event
    obtain ⟨hok, herror⟩ := run_of_does hdoes (s := s) fun _ => trivial
    cases hrun : ((eventPassProfiles bot event none).run storage s w).1 with
    | ok profiles => rw [(hok profiles hrun).2]
    | error e => exact (herror e hrun).elim
  · intro gameDate hbudget hmigrated
    have hdoes : does (fun _ => True) _ _ (dailyPassProfiles bot gameDate) w :=
      does_dailyPassProfiles_migrated bot gameDate hbudget hmigrated
    obtain ⟨hok, herror⟩ := run_of_does hdoes (s := s) fun _ => trivial
    cases hrun : ((dailyPassProfiles bot gameDate).run storage s w).1 with
    | ok answer =>
      refine ⟨answer.1, ?_⟩
      rw [← (hok answer hrun).2]
    | error e => exact (herror e hrun).elim

/-- The same person as a master only, by the later profile. -/
def masterWorld : World :=
  { twoPassengersWorld with registrations := Table.empty }

/-- The person is in either table by the later profile. -/
theorem masterWorld_agrees :
    ((eventPassProfiles sampleBot passGame none).run storage (fun _ => answering fun _ _ => .accepted)
      masterWorld).1 = .ok [passport "new@example.org"] ∧
    (∃ dayEvents, ((dailyPassProfiles sampleBot ⟨2025, 5, 1⟩).run storage
      (fun _ => answering fun _ _ => .accepted) masterWorld).1 =
        .ok (dayEvents, [passport "new@example.org"])) ∧
    EventTableMeets sampleBot masterWorld passGame := by
  obtain ⟨hevent, hday, hmeets⟩ := event_pass_agrees_iff sampleBot masterWorld
    (fun _ => answering fun _ _ => .accepted) passGame
  have hlatest : ∀ user ∈ masterWorld.users.rows,
      takesPart sampleBot masterWorld "game" user.identity = true → masterWorld.users.latest user = user := by
    decide +kernel
  have hhidden : EarlierHidden sampleBot masterWorld passGame := by
    intro earlier hearlier later hlinked hlater htakes
    obtain rfl := (hlatest earlier hearlier htakes).symm.trans hlater
    exact absurd rfl (Users.findLinked_symm hearlier hlinked).2.2
  have htables : (eventTable sampleBot masterWorld "game").filterMap (·.base.passDetails) =
        [passport "new@example.org"] ∧
      (dayTable sampleBot masterWorld ⟨2025, 5, 1⟩).filterMap (·.base.passDetails) =
        [passport "new@example.org"] := by
    decide +kernel
  obtain ⟨dayEvents, hanswer⟩ := hday ⟨2025, 5, 1⟩ (by decide) (by decide +kernel)
  exact ⟨hevent.trans (congrArg _ htables.1), ⟨dayEvents, hanswer.trans (htables.2 ▸ rfl)⟩,
    hmeets.mpr hhidden⟩

/-- The person is in the table of the game twice, and once in that of the day. -/
theorem twoPassengers_listed :
    (∀ s, ((eventPassProfiles sampleBot passGame none).run storage s twoPassengersWorld).1 =
      .ok [passport "old@example.org", passport "new@example.org"]) ∧
    (eventTable sampleBot twoPassengersWorld "game").map User.identity = [⟨.telegram, 1⟩, ⟨.vk, 10⟩] ∧
    (dayTable sampleBot twoPassengersWorld ⟨2025, 5, 1⟩).map User.identity = [⟨.vk, 10⟩] ∧
    ¬ EventTableMeets sampleBot twoPassengersWorld passGame := by
  refine ⟨fun s => ?_, by decide +kernel, by decide +kernel, ?_⟩
  · have htable : (eventTable sampleBot twoPassengersWorld "game").filterMap (·.base.passDetails) =
        [passport "old@example.org", passport "new@example.org"] := by
      decide +kernel
    have hdoes : does (fun _ => True) _ _ (eventPassProfiles sampleBot passGame none) twoPassengersWorld :=
      does_eventPassProfiles sampleBot passGame
    obtain ⟨hok, herror⟩ := run_of_does hdoes (s := s) fun _ => trivial
    cases hrun : ((eventPassProfiles sampleBot passGame none).run storage s twoPassengersWorld).1 with
    | ok profiles => rw [(hok profiles hrun).2, ← htable]; rfl
    | error e => exact (herror e hrun).elim
  · intro h
    have hlatest := h.profile (twoPassengers.rows.getD 0 plainPassenger) (by decide +kernel)
    exact absurd hlatest (by decide +kernel)

end LarpBot
