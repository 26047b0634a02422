import LarpBot.Application.RegistrationQueries
import LarpBot.Foundation.Paging

/-!
# The pages of the game lists

The kept events of a list are those that pass its filters and its predicate, in the order of creation.
A page shows the ones that a cursor leaves, up to its size, and says whether there are kept events
beyond its ends, wherever these fall in the storage pages (`pageAt_shows`). So the pages that lead
from one to the next have each kept event once (`nextPages_flatMap`), and the way back is the way forth
(`event_pages_exact`).
-/

namespace LarpBot

open Atomic Paging

/-- The events that pass the filters, in the order of the pages. -/
def eventListing (events : Events) (now : Time) (statuses : Option (List EventStatus))
    (archived : Option Bool) : List Event :=
  (sortBy Events.pageKey events.rows).filter
    (({ statuses := statuses, archived := archived } : Events.ListQuery).admits now)

section Views

variable (events : Events) (now : Time) (keep : Event → Bool) (statuses : Option (List EventStatus))
  (archived : Option Bool) (eventLimit budget concurrency : Nat)

/-- The page at a cursor. -/
def pageAt (cursor : Paging.Cursor (Time ×ₗ EventId)) : Except Fault EventPage :=
  eventPage events now keep statuses archived eventLimit budget cursor.after? cursor.before? concurrency

/-- The pages that a player sees who goes on to the next page for as long as there is one. -/
def nextPages : Nat → Paging.Cursor (Time ×ₗ EventId) → Except Fault (List EventPage)
  | 0, _ => return []
  | visits + 1, cursor => do
    let shown ← pageAt events now keep statuses archived eventLimit budget concurrency cursor
    match shown.events.getLast?, shown.hasNext with
    | some last, true =>
      let rest ← nextPages visits (.after (Events.pageKey last))
      return shown :: rest
    | _, _ => return [shown]

end Views

section Pages

variable {events : Events} {now : Time} {keep : Event → Bool} {statuses : Option (List EventStatus)}
  {archived : Option Bool} {eventLimit : Nat}

theorem ascends_sorted (events : Events) : Ascends Events.pageKey (sortBy Events.pageKey events.rows) := by
  have hnodup := (sortBy_perm Events.pageKey events.rows).map Event.eventId |>.nodup_iff.mpr events.nodup
  refine ((sortBy_pairwise _ _).and (List.pairwise_map.mp hnodup)).imp ?_
  intro a b ⟨hle, hne⟩
  exact lt_of_le_of_ne hle fun hsame => hne (congrArg (fun key => (ofLex key).2) hsame)

theorem ascends_listing (events : Events) (now : Time) (statuses : Option (List EventStatus))
    (archived : Option Bool) : Ascends Events.pageKey (eventListing events now statuses archived) :=
  (ascends_sorted events).filter _

theorem length_listing_le : (eventListing events now statuses archived).length ≤ events.rows.length := by
  have hle := List.length_filter_le (({ statuses := statuses, archived := archived } :
    Events.ListQuery).admits now) (sortBy Events.pageKey events.rows)
  rwa [length_sortBy] at hle

/-- A storage page. -/
theorem listPageBy_eq (events : Events) (now : Time) (statuses : Option (List EventStatus))
    (archived : Option Bool) {limit : Nat} (hlimit : 1 ≤ limit ∧ limit ≤ 10)
    (cursor : Paging.Cursor (Time ×ₗ EventId)) :
    events.listPageBy now
      { statuses := statuses, archived := archived, after := cursor.after?, before := cursor.before?,
        limit := limit } =
      .ok (page Events.pageKey limit (eventListing events now statuses archived) cursor) := by
  have hrange : ¬ (limit < 1 ∨ limit > maxEventPageSize) := by
    unfold maxEventPageSize
    omega
  unfold Events.listPageBy
  rw [if_neg hrange]
  cases cursor with
  | start => rfl
  | after c => rfl
  | before c =>
    have hlength := (length_rtake limit (earlier Events.pageKey c (eventListing events now statuses archived)))
    have htake : (page Events.pageKey limit (eventListing events now statuses archived) (.before c)).take limit =
        page Events.pageKey limit (eventListing events now statuses archived) (.before c) := by
      apply List.take_of_length_le
      rw [page, hlength]
      omega
    exact congrArg Except.ok htake

/-- A scan forwards finds the kept ones of a rest of the listing. -/
theorem scan_forth {matchLimit budget : Nat} {cursor : Paging.Cursor (Time ×ₗ EventId)} {rest found : List Event}
    (hlimit : 1 ≤ eventLimit)
    (hpage : ∀ n, page Events.pageKey n (eventListing events now statuses archived) cursor = rest.take n)
    (hforth : cursor.before? = none)
    (hrest : rest <:+ eventListing events now statuses archived) (hbudget : rest.length < budget)
    (hfound : found.length < matchLimit) :
    scanEvents events now keep statuses archived eventLimit matchLimit budget cursor.after? none found =
      .ok ((found ++ rest.filter keep).take matchLimit) := by
  induction budget generalizing cursor rest found with
  | zero => exact absurd hbudget (Nat.not_lt_zero _)
  | succ budget ih =>
    have hscan : 1 ≤ min eventLimit 10 ∧ min eventLimit 10 ≤ 10 := by omega
    have hfetch := listPageBy_eq events now statuses archived hscan cursor
    rw [hforth, hpage] at hfetch
    rw [scanEvents]
    dsimp only
    rw [hfetch]
    dsimp only [bind, Except.bind]
    by_cases hnil : rest = []
    · subst hnil
      simp only [List.take_nil, List.head?_nil, List.filter_nil, List.append_nil]
      exact congrArg Except.ok (List.take_of_length_le hfound.le).symm
    · have hsplit : rest.filter keep =
          (rest.take (min eventLimit 10)).filter keep ++ (rest.drop (min eventLimit 10)).filter keep := by
        rw [← List.filter_append, List.take_append_drop]
      have hlength := List.length_pos_iff.mpr hnil
      have hne : rest.take (min eventLimit 10) ≠ [] := by
        rw [← List.length_pos_iff, List.length_take]
        omega
      have hfirst := List.head?_eq_some_head hne
      have hlast := List.getLast?_eq_some_getLast hne
      rw [hfirst, hlast]
      dsimp only
      by_cases hfull : matchLimit ≤ (found ++ (rest.take (min eventLimit 10)).filter keep).length
      · rw [if_pos hfull, hsplit, ← List.append_assoc, List.take_append_of_le_length hfull]
        rfl
      · rw [if_neg hfull]
        by_cases hshort : (rest.take (min eventLimit 10)).length < min eventLimit 10
        · have hdrop : rest.drop (min eventLimit 10) = [] := by
            rw [List.length_take] at hshort
            exact List.drop_of_length_le (by omega)
          rw [if_pos hshort, hsplit, hdrop, List.filter_nil, List.append_nil,
            List.take_of_length_le (not_le.mp hfull).le]
          rfl
        · have hcut := later_of_take (ascends_listing _ _ _ _) hrest hlast
          have hpage' : ∀ n, page Events.pageKey n (eventListing events now statuses archived)
              (.after (Events.pageKey ((rest.take (min eventLimit 10)).getLast hne))) =
                (rest.drop (min eventLimit 10)).take n := fun n => by rw [page, hcut]
          have hnext := ih hpage' rfl ((List.drop_suffix _ rest).trans hrest)
            (by rw [List.length_drop]; omega) (not_le.mp hfull)
          rw [if_neg hshort, hsplit, ← List.append_assoc]
          exact hnext

/-- A scan backwards finds the last of the kept ones before a cursor. -/
theorem scan_back (keep : Event → Bool) {matchLimit budget : Nat} {c : Time ×ₗ EventId}
    (found : List Event)
    (hlimit : 1 ≤ eventLimit)
    (hbudget : (earlier Events.pageKey c (eventListing events now statuses archived)).length < budget)
    (hfound : found.length < matchLimit) :
    scanEvents events now keep statuses archived eventLimit matchLimit budget none (some c) found =
      .ok (((earlier Events.pageKey c (eventListing events now statuses archived)).filter keep ++ found).rtake
        matchLimit) := by
  induction budget generalizing c found with
  | zero => exact absurd hbudget (Nat.not_lt_zero _)
  | succ budget ih =>
    have hscan : 1 ≤ min eventLimit 10 ∧ min eventLimit 10 ≤ 10 := by omega
    have hfetch := listPageBy_eq events now statuses archived hscan (.before c)
    have hrest := earlier_prefix (ascends_listing events now statuses archived) c
    rw [page] at hfetch
    rw [scanEvents]
    dsimp only
    simp only [Paging.Cursor.after?, Paging.Cursor.before?] at hfetch
    rw [hfetch]
    dsimp only [bind, Except.bind]
    generalize hbefore : earlier Events.pageKey c (eventListing events now statuses archived) = rest
      at hrest hbudget
    by_cases hnil : rest = []
    · subst hnil
      simp only [List.rtake_nil, List.head?_nil, List.filter_nil, List.nil_append]
      exact congrArg Except.ok (rtake_of_length_le hfound.le).symm
    · have hsplit : rest.filter keep =
          (rest.rdrop (min eventLimit 10)).filter keep ++ (rest.rtake (min eventLimit 10)).filter keep := by
        rw [← List.filter_append]
        exact congrArg _ (List.take_append_drop _ _).symm
      have hlength := List.length_pos_iff.mpr hnil
      have hne : rest.rtake (min eventLimit 10) ≠ [] := by
        rw [← List.length_pos_iff, length_rtake]
        omega
      have hfirst := List.head?_eq_some_head hne
      have hlast := List.getLast?_eq_some_getLast hne
      rw [hfirst, hlast]
      dsimp only
      by_cases hfull : matchLimit ≤ ((rest.rtake (min eventLimit 10)).filter keep ++ found).length
      · rw [if_pos hfull, hsplit, List.append_assoc, rtake_append_of_le_length hfull]
        rfl
      · rw [if_neg hfull]
        by_cases hshort : (rest.rtake (min eventLimit 10)).length < min eventLimit 10
        · have hdrop : rest.rdrop (min eventLimit 10) = [] := by
            rw [length_rtake] at hshort
            rw [List.rdrop, show rest.length - min eventLimit 10 = 0 by omega, List.take_zero]
          rw [if_pos hshort, hsplit, hdrop, List.filter_nil, List.nil_append,
            rtake_of_length_le (not_le.mp hfull).le]
          rfl
        · have hcut := earlier_of_rtake (ascends_listing _ _ _ _) hrest hfirst
          have hbefore' : (earlier Events.pageKey (Events.pageKey ((rest.rtake (min eventLimit 10)).head hne))
              (eventListing events now statuses archived)).length < budget := by
            rw [hcut, List.rdrop, List.length_take]
            omega
          have hnext := ih _ hbefore' (not_le.mp hfull)
          rw [if_neg hshort, hsplit, List.append_assoc]
          rw [hcut] at hnext
          exact hnext

/-- A scan finds the page of the kept events. -/
theorem scan_eq {budget matchLimit : Nat} (hlimit : 1 ≤ eventLimit) (hmatch : 1 ≤ matchLimit)
    (hbudget : events.rows.length < budget) (cursor : Paging.Cursor (Time ×ₗ EventId)) :
    scanEvents events now keep statuses archived eventLimit matchLimit budget cursor.after?
        cursor.before? [] =
      .ok (page Events.pageKey matchLimit ((eventListing events now statuses archived).filter keep) cursor) := by
  have hle : (eventListing events now statuses archived).length < budget :=
    Nat.lt_of_le_of_lt length_listing_le hbudget
  have hasc := ascends_listing events now statuses archived
  cases cursor with
  | start => exact scan_forth hlimit (fun _ => rfl) rfl List.suffix_rfl hle hmatch
  | after c =>
    have hsuffix := later_suffix hasc c
    rw [page, later_filter]
    exact scan_forth hlimit (fun _ => rfl) rfl hsuffix (Nat.lt_of_le_of_lt hsuffix.length_le hle) hmatch
  | before c =>
    have hprefix := earlier_prefix hasc c
    have hscan := scan_back keep [] hlimit
      (Nat.lt_of_le_of_lt hprefix.length_le hle) hmatch
    rw [List.append_nil] at hscan
    rw [page, earlier_filter]
    exact hscan

/-- What a page shows of the kept events. -/
structure ShowsPage (kept : List Event) (limit : Nat) (cursor : Paging.Cursor (Time ×ₗ EventId))
    (shown : EventPage) : Prop where
  events : shown.events = page Events.pageKey limit kept cursor
  previous : shown.hasPrevious = true ↔ ∃ first ∈ shown.events.head?, ∃ event ∈ kept,
    Events.pageKey event < Events.pageKey first
  next : shown.hasNext = true ↔ ∃ last ∈ shown.events.getLast?, ∃ event ∈ kept,
    Events.pageKey last < Events.pageKey event

theorem pageAt_shows {budget concurrency : Nat} (keep : Event → Bool) (hlimit : 1 ≤ eventLimit)
    (hconcurrency : 1 ≤ concurrency) (hbudget : events.rows.length < budget)
    (cursor : Paging.Cursor (Time ×ₗ EventId)) : ∃ shown,
      pageAt events now keep statuses archived eventLimit budget concurrency cursor = .ok shown ∧
      ShowsPage ((eventListing events now statuses archived).filter keep) eventLimit cursor shown := by
  have hscan : ∀ (matchLimit : Nat) (cursor : Paging.Cursor (Time ×ₗ EventId)), 1 ≤ matchLimit →
      scanEvents events now keep statuses archived eventLimit matchLimit budget cursor.after?
          cursor.before? [] =
        .ok (page Events.pageKey matchLimit ((eventListing events now statuses archived).filter keep) cursor) :=
    fun matchLimit cursor hmatch => scan_eq hlimit hmatch hbudget cursor
  unfold pageAt eventPage
  rw [if_neg (by omega), if_neg (by omega)]
  dsimp only [bind, Except.bind, pure, Except.pure]
  rw [hscan eventLimit cursor hlimit]
  dsimp only
  generalize (eventListing events now statuses archived).filter keep = kept at hscan
  generalize hshown : page Events.pageKey eventLimit kept cursor = shown
  cases hfirst : shown.head? with
  | none =>
    obtain rfl := List.head?_eq_none_iff.mp hfirst
    exact ⟨_, rfl, hshown.symm, by simp, by simp⟩
  | some first =>
    have hne : shown ≠ [] := List.ne_nil_of_mem (List.mem_of_head? hfirst)
    have hlast := List.getLast?_eq_some_getLast hne
    have hprevious := hscan 1 (.before (Events.pageKey first)) le_rfl
    have hfollowing := hscan 1 (.after (Events.pageKey (shown.getLast hne))) le_rfl
    simp only [Paging.Cursor.after?, Paging.Cursor.before?] at hprevious hfollowing
    rw [hlast]
    dsimp only
    rw [hprevious, hfollowing]
    refine ⟨_, rfl, hshown.symm, ?_, ?_⟩
    · rw [Bool.not_eq_true', isEmpty_page_before le_rfl]
      simp [hfirst]
    · rw [Bool.not_eq_true', isEmpty_page_after le_rfl]
      simp [hlast]

/-- A page is determined by its events. -/
theorem ShowsPage.eq {kept : List Event} {cursor other : Paging.Cursor (Time ×ₗ EventId)}
    {shown back : EventPage} (hshown : ShowsPage kept eventLimit cursor shown)
    (hback : ShowsPage kept eventLimit other back) (h : back.events = shown.events) : back = shown := by
  have hprevious := hback.previous
  have hnext := hback.next
  rw [h] at hprevious hnext
  have hprevious := Bool.eq_iff_iff.mpr (hprevious.trans hshown.previous.symm)
  have hnext := Bool.eq_iff_iff.mpr (hnext.trans hshown.next.symm)
  cases back
  cases shown
  simp_all

/-- The pages from a cursor on have the kept events that the cursor leaves. -/
theorem nextPages_flatMap {budget concurrency visits : Nat} (hlimit : 1 ≤ eventLimit)
    (hconcurrency : 1 ≤ concurrency) (hbudget : events.rows.length < budget)
    {cursor : Paging.Cursor (Time ×ₗ EventId)} {rest : List Event}
    (hpage : ∀ n, page Events.pageKey n ((eventListing events now statuses archived).filter keep) cursor =
      rest.take n)
    (hrest : rest <:+ (eventListing events now statuses archived).filter keep)
    (hvisits : rest.length < visits) : ∃ pages,
      nextPages events now keep statuses archived eventLimit budget concurrency visits cursor = .ok pages ∧
        pages.flatMap EventPage.events = rest := by
  induction visits generalizing cursor rest with
  | zero => exact absurd hvisits (Nat.not_lt_zero _)
  | succ visits ih =>
    obtain ⟨shown, hshown, hshows⟩ := pageAt_shows keep hlimit hconcurrency hbudget cursor
    have hasc := (ascends_listing events now statuses archived).filter keep
    have hevents := hshows.events
    rw [hpage] at hevents
    rw [nextPages, hshown]
    dsimp only [bind, Except.bind, pure, Except.pure]
    cases hlast : shown.events.getLast? with
    | none =>
      have hnil : rest = [] := by
        have hnone := List.getLast?_eq_none_iff.mp hlast
        rw [hevents] at hnone
        exact (List.take_eq_nil_iff.mp hnone).resolve_left (by omega)
      refine ⟨[shown], rfl, ?_⟩
      simp [hevents, hnil]
    | some last =>
      have hcut := later_of_take hasc hrest (hevents ▸ hlast)
      cases hnext : shown.hasNext with
      | false =>
        have hdrop : rest.drop eventLimit = [] := by
          apply List.eq_nil_iff_forall_not_mem.mpr
          intro event hevent
          rw [← hcut] at hevent
          obtain ⟨hmem, hlt⟩ := List.mem_filter.mp hevent
          have htrue := hshows.next.mpr ⟨last, hlast, event, hmem, of_decide_eq_true hlt⟩
          exact absurd (hnext.symm.trans htrue) Bool.false_ne_true
        refine ⟨[shown], rfl, ?_⟩
        have hall := List.take_append_drop eventLimit rest
        rw [hdrop, List.append_nil] at hall
        simp [hevents, hall]
      | true =>
        have hpos : 0 < rest.length := by
          have hmem := List.mem_of_getLast? hlast
          rw [hevents] at hmem
          exact List.length_pos_of_mem (List.mem_of_mem_take hmem)
        have hpage' : ∀ n, page Events.pageKey n ((eventListing events now statuses archived).filter keep)
            (.after (Events.pageKey last)) = (rest.drop eventLimit).take n := fun n => by rw [page, hcut]
        obtain ⟨pages, hpages, hflat⟩ := ih hpage' ((List.drop_suffix _ rest).trans hrest)
          (by rw [List.length_drop]; omega)
        refine ⟨shown :: pages, ?_, ?_⟩
        · dsimp only
          rw [hpages]
        · rw [List.flatMap_cons, hflat, hevents, List.take_append_drop]

/-- The pages of a game list: each one shows the kept events that its cursor leaves, up to its size and
with what is beyond its ends; the pages from the start on show each kept event once; and of two
neighbouring pages each leads to the other. -/
theorem event_pages_exact (events : Events) (now : Time) (keep : Event → Bool)
    (statuses : Option (List EventStatus)) (archived : Option Bool) (eventLimit concurrency budget : Nat)
    (hlimit : 1 ≤ eventLimit) (hconcurrency : 1 ≤ concurrency) (hbudget : events.rows.length < budget) :
    let kept := (eventListing events now statuses archived).filter keep
    let pageAt := pageAt events now keep statuses archived eventLimit budget concurrency
    (∀ cursor, ∃ shown, pageAt cursor = .ok shown ∧ ShowsPage kept eventLimit cursor shown) ∧
    (kept.Nodup ∧ ∀ visits, kept.length < visits → ∃ pages,
      nextPages events now keep statuses archived eventLimit budget concurrency visits .start = .ok pages ∧
        pages.flatMap EventPage.events = kept) ∧
    (∀ cursor shown last next first, pageAt cursor = .ok shown → shown.events.getLast? = some last →
      pageAt (.after (Events.pageKey last)) = .ok next → next.events.head? = some first →
      pageAt (.before (Events.pageKey first)) = .ok shown) ∧
    ∀ cursor shown first previous last, pageAt cursor = .ok shown → shown.events.head? = some first →
      pageAt (.before (Events.pageKey first)) = .ok previous → previous.events.getLast? = some last →
      pageAt (.after (Events.pageKey last)) = .ok shown := by
  intro kept pageAt
  have hasc : Ascends Events.pageKey kept := (ascends_listing events now statuses archived).filter keep
  have hpages : ∀ cursor, ∃ shown, pageAt cursor = .ok shown ∧ ShowsPage kept eventLimit cursor shown :=
    fun cursor => pageAt_shows keep hlimit hconcurrency hbudget cursor
  have hshows : ∀ cursor shown, pageAt cursor = .ok shown → ShowsPage kept eventLimit cursor shown := by
    intro cursor shown hshown
    obtain ⟨other, hother, hshows⟩ := hpages cursor
    obtain rfl := Except.ok.inj (hother.symm.trans hshown)
    exact hshows
  have hstretch : ∀ cursor shown, pageAt cursor = .ok shown → Stretch eventLimit kept shown.events := by
    intro cursor shown hshown
    rw [(hshows cursor shown hshown).events]
    exact stretch_page hasc cursor
  refine ⟨hpages, ⟨hasc.nodup, fun visits hvisits => ?_⟩, ?_, ?_⟩
  · exact nextPages_flatMap hlimit hconcurrency hbudget (fun _ => rfl) List.suffix_rfl hvisits
  · intro cursor shown last next first hshown hlast hnext hfirst
    obtain ⟨back, hback, hback'⟩ := hpages (.before (Events.pageKey first))
    rw [(hshows _ next hnext).events] at hfirst
    have hsame := previous_next hasc (hstretch cursor shown hshown) hlast hfirst
    rw [hback, (hshows cursor shown hshown).eq hback' (hback'.events.trans hsame)]
  · intro cursor shown first previous last hshown hfirst hprevious hlast
    obtain ⟨back, hback, hback'⟩ := hpages (.after (Events.pageKey last))
    rw [(hshows _ previous hprevious).events] at hlast
    have hsame := next_previous hasc (hstretch cursor shown hshown) hfirst hlast
    rw [hback, (hshows cursor shown hshown).eq hback' (hback'.events.trans hsame)]

end Pages

def gameFrom (eventId : EventId) (createdAt : Time) : Event where
  eventId := eventId
  name := "Игра"
  createdAt := createdAt

def threeGames : Events where
  rows := [gameFrom "c" 3, gameFrom "a" 1, gameFrom "b" 2]
  nodup := by decide

theorem threeGames_pages : ∃ pages,
    nextPages threeGames 0 (fun event => event.eventId ≠ "b") none (some false) 1 4 3 4 .start = .ok pages ∧
      pages.flatMap EventPage.events = [gameFrom "a" 1, gameFrom "c" 3] :=
  (event_pages_exact threeGames 0 (fun event => event.eventId ≠ "b") none (some false) 1 3 4 (by decide)
    (by decide) (by decide)).2.1.2 4 (by decide)

end LarpBot
