import LarpBot.Laws.EventPages
import LarpBot.Laws.TelegramHandles

/-!
# What the game menu offers

The menu has two entries that depend on the games: the user plays in one, or one is open for sign-up in
which the user does not play. `game_menu_availability` looks at a storage page at a time, leaves out the
events that can no longer change its answer and stops when there are none (`scanMenu_eq`); the answer is
that of a look at all events (`menu_availability_exact`).
-/

namespace LarpBot

open Atomic Paging

/-- One of the identities has an active row in the game. -/
def Plays (registrations : Registrations) (keyOf : BotIdentity → EventId → ParticipantKey)
    (identities : List BotIdentity) (event : Event) : Prop :=
  ∃ identity ∈ identities, ∃ row,
    registrations.find? (event.eventId, keyOf identity event.eventId) = some row ∧ isActive row = true

/-- One registration for several: it is active if one of them is. -/
theorem any_effectiveRegistration (rows : List Registration) :
    (effectiveRegistration rows).any isActive = true ↔ ∃ row ∈ rows, isActive row = true := by
  constructor
  · intro h
    obtain ⟨row, hrow, hactive⟩ := Option.any_eq_true .. |>.mp h
    exact ⟨row, mem_of_effectiveRegistration hrow, hactive⟩
  · intro ⟨row, hrow, hactive⟩
    unfold effectiveRegistration
    extract_lets rank highest
    have hrank : ∀ row, isActive row = true ↔ 1 ≤ rank row := by
      intro row
      cases hstatus : row.attendanceStatus <;> simp [isActive, rank, hstatus]
    obtain ⟨top, htop⟩ : ∃ top, (rows.map rank).max? = some top := by
      cases hmax : (rows.map rank).max? with
      | none =>
        rw [List.max?_eq_none_iff, List.map_eq_nil_iff] at hmax
        exact absurd (hmax ▸ hrow) List.not_mem_nil
      | some top => exact ⟨top, rfl⟩
    obtain ⟨hmem, hle⟩ := List.max?_eq_some_iff.mp htop
    obtain ⟨best, hbest, hbestRank⟩ := List.mem_map.mp hmem
    have hhighest : highest = top := by simp [highest, htop]
    have hfound : best ∈ sortBy Registrations.listKey (rows.filter (rank · = highest)) :=
      mem_sortBy.mpr (List.mem_filter.mpr ⟨hbest, decide_eq_true (hbestRank.trans hhighest.symm)⟩)
    have hfirst := List.head?_eq_some_head (List.ne_nil_of_mem hfound)
    have hchosen := List.mem_filter.mp (mem_sortBy.mp (List.mem_of_head? hfirst))
    have hchosenRank := of_decide_eq_true hchosen.2
    have hone := (hrank row).mp hactive
    have hrow := hle (rank row) (List.mem_map_of_mem hrow)
    rw [hfirst, Option.any_some, hrank]
    omega

section Menu

variable {events : Events} {registrations : Registrations}
  {keyOf : BotIdentity → EventId → ParticipantKey} {identities : List BotIdentity} {now : Time}

theorem any_registrationFor (event : Event) :
    (registrationFor registrations keyOf identities event).any isActive = true ↔
      Plays registrations keyOf identities event := by
  rw [registrationFor, any_effectiveRegistration]
  simp only [List.mem_filterMap]
  constructor
  · rintro ⟨row, ⟨identity, hidentity, hrow⟩, hactive⟩
    exact ⟨identity, hidentity, row, hrow, hactive⟩
  · rintro ⟨identity, hidentity, row, hrow, hactive⟩
    exact ⟨row, ⟨identity, hidentity, hrow⟩, hactive⟩

/-- The flags after some more events. -/
def noted (registrations : Registrations) (keyOf : BotIdentity → EventId → ParticipantKey)
    (identities : List BotIdentity) (now : Time) (flags : PlayerGameMenuAvailability)
    (seen : List Event) : PlayerGameMenuAvailability where
  hasRegistrations := flags.hasRegistrations ||
    seen.any fun event => (registrationFor registrations keyOf identities event).any isActive
  hasAvailableGames := flags.hasAvailableGames ||
    seen.any fun event => !(registrationFor registrations keyOf identities event).any isActive &&
      openForSignup now event

theorem foldl_noteEvent (flags : PlayerGameMenuAvailability) (seen : List Event) :
    seen.foldl (noteEvent registrations keyOf identities now) flags =
      noted registrations keyOf identities now flags seen := by
  induction seen generalizing flags with
  | nil => simp [noted]
  | cons event seen ih =>
    rw [List.foldl_cons, ih]
    unfold noteEvent
    by_cases hplays : (registrationFor registrations keyOf identities event).any isActive = true
    · rw [if_pos hplays]
      simp [noted, hplays]
    · by_cases hopen : openForSignup now event = true
      · rw [if_neg hplays, if_pos hopen]
        simp [noted, hplays, hopen]
      · rw [if_neg hplays, if_neg hopen]
        simp [noted, hplays, hopen]

/-- The events that are left out of a page would not change the flags. -/
theorem noted_filter (flags : PlayerGameMenuAvailability) (seen : List Event) :
    noted registrations keyOf identities now flags (seen.filter fun event =>
        !flags.hasRegistrations || (!flags.hasAvailableGames && openForSignup now event)) =
      noted registrations keyOf identities now flags seen := by
  obtain ⟨hasRegistrations, hasAvailableGames⟩ := flags
  cases hasRegistrations with
  | false => simp [noted]
  | true =>
    cases hasAvailableGames with
    | true => simp [noted]
    | false =>
      simp only [noted, Bool.true_or, Bool.false_or, Bool.not_true, Bool.not_false, Bool.true_and,
        List.any_filter]
      congr 2
      funext event
      cases openForSignup now event <;> simp

theorem noted_append (flags : PlayerGameMenuAvailability) (seen rest : List Event) :
    noted registrations keyOf identities now (noted registrations keyOf identities now flags seen) rest =
      noted registrations keyOf identities now flags (seen ++ rest) := by
  simp [noted, Bool.or_assoc]

/-- The loop, from a cursor on. -/
theorem scanMenu_eq {budget : Nat} {cursor : Paging.Cursor (Time ×ₗ EventId)} {rest : List Event}
    (flags : PlayerGameMenuAvailability)
    (hpage : ∀ n, page Events.pageKey n (eventListing events now none (some false)) cursor = rest.take n)
    (hforth : cursor.before? = none)
    (hrest : rest <:+ eventListing events now none (some false)) (hbudget : rest.length < budget) :
    scanMenu events registrations keyOf identities now budget cursor.after? flags =
      .ok (noted registrations keyOf identities now flags rest) := by
  induction budget generalizing cursor rest flags with
  | zero => exact absurd hbudget (Nat.not_lt_zero _)
  | succ budget ih =>
    have hsize : 1 ≤ maxEventPageSize ∧ maxEventPageSize ≤ 10 := by decide
    have hfetch := listPageBy_eq events now none (some false) hsize cursor
    rw [hforth, hpage] at hfetch
    have hsplit := List.take_append_drop maxEventPageSize rest
    rw [scanMenu, hfetch]
    dsimp only [bind, Except.bind, pure, Except.pure]
    rw [foldl_noteEvent, noted_filter]
    generalize hseen : noted registrations keyOf identities now flags (rest.take maxEventPageSize) = seen
    have hall : noted registrations keyOf identities now flags rest =
        noted registrations keyOf identities now seen (rest.drop maxEventPageSize) := by
      rw [← hseen, noted_append, hsplit]
    cases hlast : (rest.take maxEventPageSize).getLast? with
    | none =>
      have hnil : rest.drop maxEventPageSize = [] := by
        have hrest := (List.take_eq_nil_iff.mp (List.getLast?_eq_none_iff.mp hlast)).resolve_left (by decide)
        rw [hrest, List.drop_nil]
      rw [hall, hnil]
      simp [noted]
    | some last =>
      by_cases hstop : (seen.hasRegistrations && seen.hasAvailableGames ||
          (rest.take maxEventPageSize).length < maxEventPageSize) = true
      · dsimp only
        rw [if_pos hstop, hall]
        rcases Bool.or_eq_true .. |>.mp hstop with hboth | hshort
        · obtain ⟨hplays, hopen⟩ := Bool.and_eq_true_iff.mp hboth
          obtain ⟨hasRegistrations, hasAvailableGames⟩ := seen
          simp only at hplays hopen
          simp [noted, hplays, hopen]
        · have hshort := of_decide_eq_true hshort
          rw [List.length_take] at hshort
          rw [List.drop_of_length_le (by omega)]
          simp [noted]
      · have hcut := later_of_take (ascends_listing _ _ _ _) hrest hlast
        have hpos := List.length_pos_of_mem (List.mem_of_mem_take (List.mem_of_getLast? hlast))
        have hpage' : ∀ n, page Events.pageKey n (eventListing events now none (some false))
            (.after (Events.pageKey last)) = (rest.drop maxEventPageSize).take n :=
          fun n => by rw [page, hcut]
        have hnext := ih seen hpage' rfl ((List.drop_suffix _ rest).trans hrest)
          (by rw [List.length_drop]; omega)
        dsimp only
        rw [if_neg hstop, hall]
        exact hnext

/-- The entries of the menu are those of a look at all unarchived games. -/
theorem menu_availability_exact (events : Events) (registrations : Registrations)
    (keyOf : BotIdentity → EventId → ParticipantKey) (identities : List BotIdentity) (now : Time)
    (budget : Nat) (hbudget : events.rows.length < budget) : ∃ flags,
      gameMenuAvailability events registrations keyOf identities now budget = .ok flags ∧
      (flags.hasRegistrations = true ↔ ∃ event ∈ events.rows, event.archivedAt = none ∧
        Plays registrations keyOf identities event) ∧
      (flags.hasAvailableGames = true ↔ ∃ event ∈ events.rows, event.archivedAt = none ∧
        openForSignup now event = true ∧ ¬ Plays registrations keyOf identities event) := by
  have hmem : ∀ event, event ∈ eventListing events now none (some false) ↔
      event ∈ events.rows ∧ event.archivedAt = none := by
    intro event
    simp [eventListing, Events.ListQuery.admits]
  have hstart : ∀ n, page Events.pageKey n (eventListing events now none (some false)) .start =
      (eventListing events now none (some false)).take n := fun _ => rfl
  refine ⟨_, scanMenu_eq ⟨false, false⟩ hstart rfl List.suffix_rfl
    (Nat.lt_of_le_of_lt length_listing_le hbudget), ?_, ?_⟩
  · simp only [noted, Bool.false_or, List.any_eq_true, any_registrationFor, hmem, and_assoc]
  · simp only [noted, Bool.false_or, List.any_eq_true, Bool.and_eq_true, Bool.not_eq_true',
      ← Bool.not_eq_true, any_registrationFor, hmem, and_assoc]
    simp only [and_comm (b := openForSignup now _ = true)]

end Menu

def oneRow : Registrations where
  rows := [{ eventId := "b", participantKey := "5", displayName := "Иванов Иван", wishPlay := "" }]
  nodup := by decide

/-- A user who plays in one of three games, the last one created. -/
theorem threeGames_menu : ∃ flags,
    gameMenuAvailability threeGames oneRow (fun identity _ => toString identity.platformUserId)
      [⟨.telegram, 4⟩, ⟨.vk, 5⟩] 0 4 = .ok flags ∧ flags.hasRegistrations = true := by
  obtain ⟨flags, hflags, hplays, -⟩ := menu_availability_exact threeGames oneRow
    (fun identity _ => toString identity.platformUserId) [⟨.telegram, 4⟩, ⟨.vk, 5⟩] 0 4 (by decide)
  refine ⟨flags, hflags, hplays.mpr ⟨gameFrom "b" 2, by decide, rfl, ⟨.vk, 5⟩, by decide, ?_⟩⟩
  exact ⟨oneRow.rows[0], by decide, by decide⟩

end LarpBot
