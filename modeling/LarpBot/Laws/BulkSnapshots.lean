import LarpBot.Adapters.UserSnapshots
import LarpBot.Laws.GrantedRoles

/-!
# What a batch reads after a write

A call that writes users throws the kept rows away before it loads anything, and never again. A scan
that is under way keeps its rows when it is done, whenever it began. So the rows that a batch keeps
may be older than a write that has returned, and every bulk read of the batch shows them from then on.

Where no scan is under way and no rows are kept when a write is taken, each bulk read shows what the
tables have held since (`bulk_reads_fresh`). The lock is what carries the proof: while a coroutine
holds it nothing of this process is written, so all its pages are newer than every write.
-/

namespace LarpBot

open Atomic
open Prog (Traced Makes)

variable {place : BotIdentity → Nat} {budget : Nat}

abbrev UserFleet := Fleet snapshotCalls Fault (Option (Σ m : UserMethod, m.Ans)) UserTask Nat UserTables

abbrev UserLabel := Label UserTask Nat SnapshotInput UserTables

abbrev UserRecord := Record snapshotCalls (Option (Σ m : UserMethod, m.Ans)) UserTask UserTables

/-! ## The law and its condition -/

/-- The rows show each user as the tables held it at some moment of a time. -/
def Reflects (time : List UserItems) (rows : SnapshotRows) : Prop :=
  ∀ identity, ∃ contents ∈ time,
    (dynamoUsers.original (rows.1 ++ rows.2)).find? identity = contents.find? identity

/-- Other processes write the tables, and no coroutine is cut off. -/
def Coroutines (s : UserFleet) : UserLabel → Prop
  | .outside w => ∃ items, w = s.world.wrote items
  | .abandon _ => False
  | _ => True

/-- And when a write is taken, no scan is under way and no rows are kept. -/
def CarefulWrites (place : BotIdentity → Nat) (s : UserFleet) (l : UserLabel) : Prop :=
  Coroutines s l ∧ ∀ g i job actions, l = .call g i →
    s.pending g = some (job, .request (.transactWriteItems actions)) →
    ((SnapshotCall.request (.transactWriteItems actions)).perform place i s.world).1 = .committed →
      s.world.holder = none ∧ s.world.rows = none

/-- **The law.** A bulk read of a batch that starts after a write was taken answers from users that
the tables have held since. The read starts after the write if all its calls come after it, and it
reads for the batch if it never finds the snapshot closed. -/
def FreshReads (budget : Nat) (s : UserFleet) : Prop :=
  ∀ (later : List UserRecord) (g : Nat) (m : UserMethod) (answer : m.Ans) (during : List UserRecord)
    (job : UserTask) (actions : List (Action User BotIdentity)) (before after : UserTables)
    (earlier : List UserRecord),
    s.history = later ++ .finished (.call g m) (some ⟨m, answer⟩) ::
      (during ++ .called job (.request (.transactWriteItems actions)) before .committed after ::
        earlier) →
    m.isBulk = true →
    callsSince (userTasks budget) g (during ++
      .called job (.request (.transactWriteItems actions)) before .committed after :: earlier) =
        callsSince (userTasks budget) g during →
    ⟨.inSnapshot, false⟩ ∉ callsSince (userTasks budget) g during →
    ∃ time now memory memory', s.world.contents = time ++ before.contents ∧
      m.run now memory = .ok (answer, memory') ∧
      ∀ identity, ∃ contents ∈ time,
        memory.find? identity = (contents.find? identity).map Item.document

/-! ## The steps -/

section Steps

variable {i : SnapshotInput} {w w' : UserTables}

/-- A request leaves the tables alone, or it is a transaction that is taken. -/
theorem perform_request (place : BotIdentity → Nat) (c : Request User BotIdentity Empty UserSearch) :
    ((SnapshotCall.request c).perform place i w).2 = w ∨
      ∃ actions items, c = .transactWriteItems actions ∧
        (SnapshotCall.request (.transactWriteItems actions)).perform place i w =
          (.committed, w.committed items) := by
  cases c with
  | transactWriteItems actions =>
    cases hresult : dynamoUsers.perform (.transactWriteItems actions) i.service w.items with
    | mk outcome items =>
      cases outcome with
      | committed => exact .inr ⟨actions, items, rfl, by simp only [SnapshotCall.perform, hresult]⟩
      | cancelled => exact .inl (by simp only [SnapshotCall.perform, hresult])
      | failed => exact .inl (by simp only [SnapshotCall.perform, hresult])
  | _ => exact .inl rfl

theorem committed_of_answer {actions : List (Action User BotIdentity)}
    (h : ((SnapshotCall.request (.transactWriteItems actions)).perform place i w).1 = .committed) :
    ∃ items, ((SnapshotCall.request (.transactWriteItems actions)).perform place i w).2 =
      w.committed items := by
  cases hresult : dynamoUsers.perform (.transactWriteItems actions) i.service w.items with
  | mk outcome items =>
    simp only [SnapshotCall.perform, hresult] at h ⊢
    cases outcome with
    | committed => exact ⟨items, rfl⟩
    | cancelled => exact nomatch h
    | failed => exact nomatch h

theorem perform_page (telegram vk : Cursor) :
    ((SnapshotCall.page telegram vk).perform place i w).2 = w := by
  simp only [SnapshotCall.perform]
  split <;> rfl

/-- What the tables hold is the latest of what they have held. -/
theorem items_mem_perform (place : BotIdentity → Nat) (c : SnapshotCall) (h : w.items ∈ w.since) :
    (c.perform place i w).2.items ∈ (c.perform place i w).2.since := by
  cases c with
  | request c =>
    rcases perform_request place c with hsame | ⟨actions, items, rfl, hcommitted⟩
    · rw [hsame]
      exact h
    · rw [hcommitted]
      exact List.mem_singleton_self items
  | page telegram vk =>
    rw [perform_page]
    exact h
  | acquire holder =>
    simp only [SnapshotCall.perform]
    split
    · exact h
    · split <;> exact h
  | _ => exact h

/-- What a lane may rely on: while it holds the lock it goes on holding it, and what the tables have
held since the last write stays. -/
def others (g : Nat) : Surround UserTables SnapshotInput where
  moves w w' := w'.items ∈ w'.since ∧
    (w.holder = some g → w'.holder = some g ∧ w.since ⊆ w'.since)
  admits _ := True

/-- What a lane gives the others in return, if its writes are taken while the lock is free; and the
rows that it keeps are fresh. -/
def Guarantees (g : Nat) (c : SnapshotCall) (w w' : UserTables) : Prop :=
  ((∃ actions, c = .request (.transactWriteItems actions)) → w' = w ∨ w.holder = none) →
    w.items ∈ w.since →
      (∀ g', g' ≠ g → (others g').moves w w') ∧
        ∀ rows, c = .keep rows → w.holder = some g ∧ Reflects w.since rows

theorem others_refl (g : Nat) (h : w.items ∈ w.since) : (others g).moves w w :=
  ⟨h, fun hheld => ⟨hheld, List.Subset.refl _⟩⟩

theorem others_trans {g : Nat} {w'' : UserTables} (h : (others g).moves w w')
    (h' : (others g).moves w' w'') : (others g).moves w w'' := by
  refine ⟨h'.1, fun hheld => ?_⟩
  obtain ⟨hheld', hsince⟩ := h.2 hheld
  obtain ⟨hheld'', hsince'⟩ := h'.2 hheld'
  exact ⟨hheld'', fun _ h => hsince' (hsince h)⟩

theorem others_wrote (g : Nat) (items : UserItems) : (others g).moves w (w.wrote items) :=
  ⟨List.mem_cons_self, fun hheld => ⟨hheld, List.subset_cons_self _ _⟩⟩

/-- The calls that neither keep rows nor give the lock back. -/
def SnapshotCall.IsQuiet (g : Nat) : SnapshotCall → Prop
  | keep _ | release => False
  | acquire holder => holder = g
  | _ => True

theorem guarantees_of_isQuiet {g : Nat} {c : SnapshotCall} (hc : c.IsQuiet g) :
    Guarantees g c w (c.perform place i w).2 := by
  intro hfree hitems
  have hnew := items_mem_perform place (i := i) c hitems
  refine ⟨fun g' hg => ⟨hnew, fun hheld => ?_⟩, ?_⟩
  · cases c with
    | request c =>
      rcases perform_request place (i := i) (w := w) c with
        hsame | ⟨actions, items, rfl, -⟩
      · rw [hsame]
        exact ⟨hheld, List.Subset.refl _⟩
      · rcases hfree ⟨actions, rfl⟩ with hsame | hnone
        · rw [hsame]
          exact ⟨hheld, List.Subset.refl _⟩
        · exact nomatch hnone.symm.trans hheld
    | page telegram vk =>
      rw [perform_page]
      exact ⟨hheld, List.Subset.refl _⟩
    | acquire holder =>
      have hheld' : w.holder.isSome = true := by rw [hheld]; rfl
      simp only [SnapshotCall.perform, hheld', if_true]
      exact ⟨hheld, List.Subset.refl _⟩
    | keep rows => exact hc.elim
    | release => exact hc.elim
    | _ => exact ⟨hheld, List.Subset.refl _⟩
  · rintro rows rfl
    exact hc.elim

/-- The calls that give the lock back leave the other lanes alone. -/
theorem guarantees_release {g : Nat} (hheld : w.holder = some g) :
    Guarantees g .release w ((SnapshotCall.release).perform place i w).2 := by
  intro _ hitems
  refine ⟨fun g' hg => ⟨hitems, fun hother => ?_⟩, fun _ => nofun⟩
  exact absurd (Option.some.inj (hother.symm.trans hheld)) hg

theorem guarantees_keep {g : Nat} {rows : SnapshotRows} (hheld : w.holder = some g)
    (hrows : Reflects w.since rows) :
    Guarantees g (.keep rows) w ((SnapshotCall.keep rows).perform place i w).2 := by
  intro _ hitems
  refine ⟨fun g' hg => ⟨hitems, fun hother => ?_⟩, ?_⟩
  · exact absurd (Option.some.inj (hother.symm.trans hheld)) hg
  · rintro _ ⟨⟩
    exact ⟨hheld, hrows⟩

end Steps

/-! ## The scans -/

section Scans

variable {time time' : List UserItems} {platform : Platform} {cursor telegram vk : Cursor}
  {items more : List (Item User)} {rows : SnapshotRows} {identity : BotIdentity} {g : Nat}
  {w : UserTables}

/-- What a list of items shows for a user. -/
def itemOf (items : List (Item User)) (identity : BotIdentity) : Option (Item User) :=
  (Table.ofList items : UserItems).find? identity

theorem find?_original : (dynamoUsers.original items).find? identity = itemOf items identity := by
  show (Table.ofList (items.filter fun _ => true) : UserItems).find? identity = _
  rw [List.filter_true]
  rfl

/-- The later item counts. -/
theorem itemOf_append : itemOf (items ++ more) identity = (itemOf more identity).or (itemOf items identity) := by
  simp only [itemOf, Table.find?_ofList, List.reverse_append, List.find?_append]

theorem itemOf_rows (contents : UserItems) : itemOf contents.rows identity = contents.find? identity := by
  rw [itemOf, Table.find?, Table.rows_ofList contents.nodup]
  rfl

/-- A list of one platform shows no user of another one. -/
theorem itemOf_of_platform_ne (hown : ∀ item ∈ items, item.document.identity.platform = platform)
    (h : identity.platform ≠ platform) : itemOf items identity = none := by
  cases hfound : itemOf items identity with
  | none => rfl
  | some item =>
    have hmem := Table.mem_of_mem_ofList (Table.mem_of_find? hfound)
    have hkey := Store.key_of_find? hfound
    exact absurd (hkey ▸ hown item hmem) h

/-- The places that a scan has behind it. -/
def Cursor.covers (place : BotIdentity → Nat) : Cursor → BotIdentity → Prop
  | .after none, _ => False
  | .after (some last), identity => place identity ≤ last
  | .done, _ => True

instance : (cursor : Cursor) → Decidable (cursor.covers place identity)
  | .after none => .isFalse id
  | .after (some last) => inferInstanceAs (Decidable (place identity ≤ last))
  | .done => .isTrue trivial

theorem not_covers_after {after : Option Nat} : ¬(Cursor.after after).covers place identity ↔
    after.all (· < place identity) = true := by
  cases after <;> simp [Cursor.covers]

theorem covers_page {platform : Platform} {after upTo : Option Nat} :
    (w.page place platform after upTo).cursor.covers place identity ↔
      (upTo.map (max (after.getD 0))).all (place identity ≤ ·) = true := by
  cases upTo <;> simp [UserTables.page, Page.cursor, Cursor.covers]

/-- A page leaves no place behind. -/
theorem covers_of_behind {platform : Platform} {after upTo : Option Nat}
    (h : (Cursor.after after).covers place identity) :
    (w.page place platform after upTo).cursor.covers place identity := by
  rw [covers_page]
  cases after with
  | none => exact h.elim
  | some last =>
    have hlast : place identity ≤ last := h
    cases upTo with
    | none => rfl
    | some upTo => simp [hlast]

/-- What a scan of the users of a platform has read by now, in the course of a time. -/
structure ReadUpTo (place : BotIdentity → Nat) (time : List UserItems) (platform : Platform)
    (cursor : Cursor) (items : List (Item User)) : Prop where
  own : ∀ item ∈ items, item.document.identity.platform = platform
  behind : ∀ identity, identity.platform = platform → cursor.covers place identity →
    ∃ contents ∈ time, itemOf items identity = contents.find? identity
  ahead : ∀ identity, ¬cursor.covers place identity → itemOf items identity = none

theorem ReadUpTo.start : ReadUpTo place time platform (.after none) [] where
  own := by simp
  behind := fun _ _ h => h.elim
  ahead := fun _ _ => rfl

theorem ReadUpTo.mono (h : ReadUpTo place time platform cursor items) (htime : time ⊆ time') :
    ReadUpTo place time' platform cursor items where
  own := h.own
  behind := fun identity hplatform hcovers => by
    obtain ⟨contents, hmem, hfound⟩ := h.behind identity hplatform hcovers
    exact ⟨contents, htime hmem, hfound⟩
  ahead := h.ahead

/-- One page more. -/
theorem ReadUpTo.page {after upTo : Option Nat}
    (h : ReadUpTo place time platform (.after after) items) (hitems : w.items ∈ time) :
    ReadUpTo place time platform (w.page place platform after upTo).cursor
      (items ++ (w.page place platform after upTo).items) := by
  -- What the page shows: the tables as they are, between its ends.
  have hpage (identity : BotIdentity) : itemOf (w.page place platform after upTo).items identity =
      if identity.platform = platform ∧ ¬(Cursor.after after).covers place identity ∧
          (w.page place platform after upTo).cursor.covers place identity then
        w.items.find? identity
      else none := by
    simp only [covers_page, not_covers_after]
    show itemOf (w.items.filter _).rows identity = _
    rw [itemOf_rows, Table.find?_filter]
    cases hfound : w.items.find? identity with
    | none => simp
    | some item =>
      have hkey := Store.key_of_find? hfound
      subst hkey
      simp [Option.filter, and_assoc]
  refine ⟨?_, ?_, ?_⟩
  · intro item hitem
    rcases List.mem_append.mp hitem with hitem | hitem
    · exact h.own item hitem
    · have hmem := (List.mem_filter.mp hitem).2
      simp only [Bool.and_eq_true, decide_eq_true_eq] at hmem
      exact hmem.1.1
  · intro identity hplatform hcovers
    rw [itemOf_append, hpage]
    by_cases hbehind : (Cursor.after after).covers place identity
    · rw [if_neg fun hnew => hnew.2.1 hbehind]
      exact h.behind identity hplatform hbehind
    · rw [if_pos ⟨hplatform, hbehind, hcovers⟩, h.ahead identity hbehind, Option.or_none]
      exact ⟨w.items, hitems, rfl⟩
  · intro identity hahead
    rw [itemOf_append, hpage, if_neg fun hnew => hahead hnew.2.2]
    exact h.ahead identity fun hbehind => hahead (covers_of_behind hbehind)

/-- Both scans together show all users. -/
theorem ReadUpTo.reflects (ht : ReadUpTo place time .telegram .done rows.1)
    (hv : ReadUpTo place time .vk .done rows.2) (hitems : w.items ∈ time) : Reflects time rows := by
  intro identity
  rw [find?_original, itemOf_append]
  cases hplatform : identity.platform with
  | telegram =>
    rw [itemOf_of_platform_ne hv.own (by rw [hplatform]; decide), Option.none_or]
    exact ht.behind identity hplatform trivial
  | vk =>
    rw [itemOf_of_platform_ne ht.own (by rw [hplatform]; decide), Option.or_none]
    exact hv.behind identity hplatform trivial
  | system =>
    rw [itemOf_of_platform_ne hv.own (by rw [hplatform]; decide),
      itemOf_of_platform_ne ht.own (by rw [hplatform]; decide)]
    refine ⟨w.items, hitems, ?_⟩
    cases hfound : w.items.find? identity with
    | none => rfl
    | some item =>
      have hkey := Store.key_of_find? hfound
      have huser : item.document.identity.platform ≠ .system := by
        cases item.document <;> nofun
      rw [← hkey] at hplatform
      exact absurd hplatform huser

/-- One step of both scans. -/
theorem scans_succ {budget : Nat} (h : ¬(telegram = .done ∧ vk = .done)) :
    scans (budget + 1) telegram vk rows = (snapshotCall (.page telegram vk)).bind fun
      | none => .fail DynamoRepository.clientError
      | some page =>
        match page.platform with
        | .telegram => scans budget page.cursor vk (rows.1 ++ page.items, rows.2)
        | _ => scans budget telegram page.cursor (rows.1, rows.2 ++ page.items) := by
  cases telegram <;> cases vk <;> first | rfl | exact absurd ⟨rfl, rfl⟩ h

/-- The page that comes next carries on one of the scans. -/
theorem nextScan_cases {vkFirst : Bool} {platform : Platform} {after : Option Nat}
    (h : nextScan vkFirst telegram vk = some (platform, after)) :
    platform = .telegram ∧ telegram = .after after ∨ platform = .vk ∧ vk = .after after := by
  cases telegram <;> cases vk <;> cases vkFirst <;> simp_all [nextScan]

theorem wp_scans (budget : Nat) (hheld : w.holder = some g) (hitems : w.items ∈ w.since)
    (ht : ReadUpTo place w.since .telegram telegram rows.1)
    (hv : ReadUpTo place w.since .vk vk rows.2) :
    wp (userTables place) (others g) (Guarantees g)
      (fun rows w => w.holder = some g ∧ Reflects w.since rows) (fun _ w => w.holder = some g)
      (scans budget telegram vk rows) w := by
  induction budget generalizing telegram vk rows w with
  | zero =>
    by_cases hdone : telegram = .done ∧ vk = .done
    · obtain ⟨rfl, rfl⟩ := hdone
      exact ⟨hheld, ht.reflects hv hitems⟩
    · cases telegram <;> cases vk <;> first | exact hheld | exact absurd ⟨rfl, rfl⟩ hdone
  | succ budget ih =>
    by_cases hdone : telegram = .done ∧ vk = .done
    · obtain ⟨rfl, rfl⟩ := hdone
      exact ⟨hheld, ht.reflects hv hitems⟩
    · rw [scans_succ hdone, wp_bind]
      intro w' hmoves i _
      obtain ⟨hitems', hlocked⟩ := hmoves
      obtain ⟨hheld', hsince⟩ := hlocked hheld
      refine ⟨guarantees_of_isQuiet (c := .page telegram vk) trivial, ?_⟩
      have ht' := ht.mono hsince
      have hv' := hv.mono hsince
      cases hnext : nextScan i.vkFirst telegram vk with
      | none =>
        have hresult : (SnapshotCall.page telegram vk).perform place i w' = (none, w') := by
          simp only [SnapshotCall.perform, hnext]
        simp only [hresult]
        exact hheld'
      | some next =>
        obtain ⟨platform, after⟩ := next
        by_cases hfails : i.fails = true
        · have hresult : (SnapshotCall.page telegram vk).perform place i w' = (none, w') := by
            simp only [SnapshotCall.perform, hnext, hfails, if_true]
          simp only [hresult]
          exact hheld'
        · have hresult : (SnapshotCall.page telegram vk).perform place i w' =
              (some (w'.page place platform after i.upTo), w') := by
            simp only [SnapshotCall.perform, hnext, hfails]
            rfl
          simp only [hresult]
          rcases nextScan_cases hnext with ⟨rfl, rfl⟩ | ⟨rfl, rfl⟩
          · exact ih hheld' hitems' (ht'.page hitems') hv'
          · exact ih hheld' hitems' ht' (hv'.page hitems')

theorem wp_acquired (budget : Nat) (w : UserTables) :
    wp (userTables place) (others g) (Guarantees g)
      (fun rows w => rows = none → w.holder = some g ∧ w.items ∈ w.since) (fun _ _ => True)
      (acquired g budget) w := by
  induction budget generalizing w with
  | zero => trivial
  | succ budget ih =>
    show wp _ _ _ _ _ ((snapshotCall (.acquire g)).bind _) w
    rw [wp_bind]
    intro w' hmoves i _
    refine ⟨guarantees_of_isQuiet (c := .acquire g) rfl, ?_⟩
    simp only [SnapshotCall.perform]
    split
    · exact ih w'
    · split
      · exact nofun
      · exact fun _ => ⟨rfl, hmoves.1⟩

theorem wp_bulkRows (w : UserTables) :
    wp (userTables place) (others g) (Guarantees g) (fun _ _ => True) (fun _ _ => True)
      (bulkRows budget g) w := by
  show wp _ _ _ _ _ ((acquired g budget).bind _) w
  rw [wp_bind]
  refine wp_mono (wp_acquired budget w) (fun kept w hfree => ?_) fun _ _ h => h
  cases kept with
  | some rows => trivial
  | none =>
    obtain ⟨hheld, hitems⟩ := hfree rfl
    show wp _ _ _ _ _ (((scans budget (.after none) (.after none) ([], [])).catching _).bind _) w
    rw [wp_bind, wp_catching]
    refine wp_mono (wp_scans budget hheld hitems .start .start) (fun rows w hread => ?_)
      fun fault w hheld => ?_
    · intro w' hmoves i _
      obtain ⟨hheld', hsince⟩ := hmoves.2 hread.1
      refine ⟨guarantees_keep hheld' fun identity => ?_, trivial⟩
      obtain ⟨contents, hmem, hshown⟩ := hread.2 identity
      exact ⟨contents, hsince hmem, hshown⟩
    · intro w' hmoves i _
      exact ⟨guarantees_release (hmoves.2 hheld).1, trivial⟩

end Scans

/-! ## The coroutines -/

section Programs

variable {g : Nat}

theorem wp_snapshotCall {α : Type} {c : SnapshotCall} {f : c.Ans → Coroutine α} {w : UserTables}
    {Q : α → UserTables → Prop} {X : Fault → UserTables → Prop} (hc : c.IsQuiet g)
    (h : ∀ answer w, wp (userTables place) (others g) (Guarantees g) Q X (f answer) w) :
    wp (userTables place) (others g) (Guarantees g) Q X ((snapshotCall c).bind f) w :=
  fun _ _ _ _ => ⟨guarantees_of_isQuiet hc, h _ _⟩

theorem wp_snapshotRowsForCall (m : UserMethod) (w : UserTables) :
    wp (userTables place) (others g) (Guarantees g) (fun _ _ => True) (fun _ _ => True)
      (snapshotRowsForCall budget g m) w := by
  show wp _ _ _ _ _ ((snapshotCall .inSnapshot).bind _) w
  refine wp_snapshotCall trivial fun inside w => ?_
  rw [wp_ite]
  constructor
  · intro _
    show wp _ _ _ _ _ ((bulkRows budget g).bind _) _
    rw [wp_bind]
    exact wp_mono (wp_bulkRows _) (fun _ _ _ => trivial) fun _ _ _ => trivial
  · intro _
    have hcall (c : Request User BotIdentity Empty UserSearch) : (snapshotCall (.request c)).Makes
        (fun _ _ => True) (SnapshotCall.IsQuiet g) fun _ => True :=
      ⟨trivial, fun _ _ => trivial⟩
    have hmakes := Makes.embed hcall m.rowsForCall
    exact wp_of_makes (h := userTables place) hmakes (fun _ _ _ _ => trivial)
      fun c i w hc _ => guarantees_of_isQuiet hc

theorem wp_snapshotExecute (m : UserMethod) (attempts : Nat) (w : UserTables) :
    wp (userTables place) (others g) (Guarantees g) (fun _ _ => True) (fun _ _ => True)
      (snapshotExecute budget g m attempts) w := by
  induction attempts generalizing w with
  | zero => trivial
  | succ attempts ih =>
    show wp _ _ _ _ _ ((snapshotRowsForCall budget g m).bind _) w
    rw [wp_bind]
    refine wp_mono (wp_snapshotRowsForCall m w) (fun rows w _ => ?_) fun _ _ _ => trivial
    show wp _ _ _ _ _ ((snapshotCall (.request .now)).bind _) w
    refine wp_snapshotCall trivial fun now w => ?_
    cases dynamoUsers.worksOut m now rows with
    | error fault => trivial
    | ok result =>
      obtain ⟨answer, actions⟩ := result
      simp only [wp_ite]
      refine ⟨fun _ => trivial, fun _ => ⟨fun _ => trivial, fun _ => ?_⟩⟩
      show wp _ _ _ _ _ ((snapshotCall (.request (.transactWriteItems actions))).bind _) w
      refine wp_snapshotCall trivial fun outcome w => ?_
      cases outcome with
      | committed => trivial
      | failed => trivial
      | cancelled =>
        simp only [wp_ite]
        exact ⟨fun _ => trivial, fun _ => ih w⟩

theorem wp_invoke (m : UserMethod) (w : UserTables) :
    wp (userTables place) (others g) (Guarantees g) (fun _ _ => True) (fun _ _ => True)
      (invoke budget g m) w := by
  unfold invoke
  split
  · intro w' _ i _
    exact ⟨guarantees_of_isQuiet (c := .invalidate) trivial, wp_snapshotExecute m 4 _⟩
  · exact wp_snapshotExecute m 4 w

theorem wp_program (job : UserTask) (w : UserTables) :
    wp (userTables place) (others ((userTasks budget).group job))
      (Guarantees ((userTasks budget).group job)) (fun _ _ => True) (fun _ _ => True)
      ((userTasks budget).program job) w := by
  cases job with
  | call lane m =>
    show wp _ _ _ _ _ ((invoke budget lane m).bind _) w
    rw [wp_bind]
    exact wp_mono (wp_invoke m w) (fun _ _ _ => trivial) fun _ _ _ => trivial
  | batch lane =>
    intro w₁ _ i _
    refine ⟨guarantees_of_isQuiet (c := .enter) trivial, fun w₂ _ i _ => ?_⟩
    exact ⟨guarantees_of_isQuiet (c := .exit) trivial, trivial⟩

end Programs

/-! ## Runs -/

section Runs

variable {s₀ s : UserFleet}

theorem items_mem_reached
    (hs : Fleet.Reaches (userTasks budget) (userTables place) Coroutines s₀ s)
    (hworld : s₀.world.items ∈ s₀.world.since) : s.world.items ∈ s.world.since := by
  induction hs with
  | refl => exact hworld
  | @step s l _ hl ih =>
    cases l with
    | publish job => exact ih
    | outside w =>
      obtain ⟨items, rfl⟩ := hl
      exact List.mem_cons_self
    | start g => rw [Fleet.step]; split <;> exact ih
    | call g i =>
      rw [Fleet.step]
      split
      · exact items_mem_perform place _ ih
      · exact ih
    | finish g => rw [Fleet.step]; split <;> exact ih
    | abandon g => exact hl.elim

/-- A careful write is one that the guarantees ask for. -/
theorem CarefulWrites.free {g : Nat} {i : SnapshotInput} {job : UserTask} {c : SnapshotCall}
    (hl : CarefulWrites place s (.call g i)) (hpending : s.pending g = some (job, c)) :
    (∃ actions, c = .request (.transactWriteItems actions)) →
      (c.perform place i s.world).2 = s.world ∨ s.world.holder = none := by
  rintro ⟨actions, rfl⟩
  rcases perform_request place (i := i) (w := s.world) (.transactWriteItems actions) with
    hsame | ⟨actions', items, hactions, hcommitted⟩
  · exact .inl hsame
  · obtain rfl := Request.transactWriteItems.inj hactions
    exact .inr (hl.2 g i job actions rfl hpending (by rw [hcommitted])).1

/-- Whatever a coroutine is at, it guarantees what it has to. -/
theorem knows_reached (hs : Fleet.Reaches (userTasks budget) (userTables place) (CarefulWrites place) s₀ s)
    (hidle : s₀.Idle) (hworld : s₀.world.items ∈ s₀.world.since) :
    ∀ g job p, s.Working g job p →
      wp (userTables place) (others ((userTasks budget).group job))
        (Guarantees ((userTasks budget).group job)) (fun _ _ => True) (fun _ _ => True) p s.world := by
  refine hs.attempt_rule (fun s => s.world.items ∈ s.world.since ∧
    s.Attempts (userTasks budget) (fun _ => True) fun _ _ _ => True) _ hidle
    (fun s hs => ⟨items_mem_reached (hs.mono fun _ _ h => h.1) hworld, hs.grouped hidle⟩)
    (fun s job _ => wp_program job s.world) ?_ ?_ ?_
  · intro s g i job c next hbase hl hworking hknows
    exact (hknows s.world (others_refl _ hbase.1) i trivial).2
  · intro s g i job c next g' job' p hbase hl hworking hknows hg hworking' hknows'
    obtain ⟨hitems, hattempts⟩ := hbase
    have hguarantees := (hknows s.world (others_refl _ hitems) i trivial).1
    obtain ⟨_, hlane⟩ := hworking
    obtain ⟨_, hlane'⟩ := hworking'
    have hgroups : (userTasks budget).group job' ≠ (userTasks budget).group job := by
      rw [(hattempts.oldest hlane).1, (hattempts.oldest hlane').1]
      exact hg.symm
    have hfree := hl.free (show s.Calls g job c from ⟨_, _, hlane⟩).pending
    have hmoves := (hguarantees hfree hitems).1 _ hgroups
    exact wp_stable hknows' (fun w' hmoves' => others_trans hmoves hmoves') (fun _ _ => trivial)
      fun _ _ => trivial
  · intro s w g job p hbase hl hworking hknows
    obtain ⟨items, rfl⟩ := hl.1
    exact wp_stable hknows (fun w' hmoves => others_trans (others_wrote _ items) hmoves)
      (fun _ _ => trivial) fun _ _ => trivial

/-- The rows that a coroutine is about to keep are fresh. -/
theorem keeps_fresh (hs : Fleet.Reaches (userTasks budget) (userTables place) (CarefulWrites place) s₀ s)
    (hidle : s₀.Idle) (hworld : s₀.world.items ∈ s₀.world.since) {g : Nat} {job : UserTask}
    {rows : SnapshotRows} (hcalls : s.Calls g job (.keep rows)) :
    Reflects s.world.since rows := by
  obtain ⟨next, rest, hlane⟩ := hcalls
  have hitems := items_mem_reached (hs.mono fun _ _ h => h.1) hworld
  have hknows := knows_reached hs hidle hworld g job _ ⟨rest, hlane⟩
  have hguarantees := (hknows s.world (others_refl _ hitems) {} trivial).1
  exact ((hguarantees (fun ⟨_, h⟩ => nomatch h) hitems).2 rows rfl).2

end Runs

/-! ## Where an answer comes from -/

section Answers

variable {g : Nat} {m : UserMethod} {made : List snapshotCalls.Entry}

/-- A call that gives a coroutine the rows of the snapshot. -/
def Takes : (c : SnapshotCall) → c.Ans → SnapshotRows → Prop
  | .acquire _, .cached rows, taken => taken = rows
  | .keep rows, _, taken => taken = rows
  | _, _, _ => False

def TookRows (made : List snapshotCalls.Entry) (rows : SnapshotRows) : Prop :=
  ∃ c answer, ⟨c, answer⟩ ∈ made ∧ Takes c answer rows

/-- A bulk read that never finds the snapshot closed answers from rows that it took there. -/
def AnsweredFrom (made : List snapshotCalls.Entry) (value : Option (Σ m : UserMethod, m.Ans)) : Prop :=
  ∀ m answer, value = some ⟨m, answer⟩ → m.isBulk = true → ⟨.inSnapshot, false⟩ ∉ made →
    ∃ rows now memory', TookRows made rows ∧
      m.run now (dynamoUsers.load (dynamoUsers.original (rows.1 ++ rows.2))) = .ok (answer, memory')

theorem TookRows.cons {rows : SnapshotRows} (h : TookRows made rows) (entry : snapshotCalls.Entry) :
    TookRows (entry :: made) rows := by
  obtain ⟨c, answer, hmem, htakes⟩ := h
  exact ⟨c, answer, List.mem_cons_of_mem _ hmem, htakes⟩

/-- What the calls of a coroutine tell of its value. -/
def tells {α : Type} (Q : List snapshotCalls.Entry → α → Prop) (p : Coroutine α)
    (made : List snapshotCalls.Entry) : Prop :=
  p.Traced (fun _ _ => True) (fun _ _ => True) (fun _ _ => True) Q made

theorem tells_suffix {α : Type} (p : Coroutine α) (made : List snapshotCalls.Entry) :
    tells (fun made' _ => made <:+ made') p made :=
  (Prog.traced_suffix p made).mono (fun _ _ _ => trivial) (fun _ _ _ => trivial) fun _ _ h => h

theorem tells_call {α : Type} {Q : List snapshotCalls.Entry → α → Prop} {c : SnapshotCall}
    {f : c.Ans → Coroutine α} (h : ∀ answer, tells Q (f answer) (⟨c, answer⟩ :: made)) :
    tells Q ((snapshotCall c).bind f) made :=
  ⟨trivial, fun answer _ => h answer⟩

theorem tells_acquired (budget : Nat) (made : List snapshotCalls.Entry) :
    tells (fun made kept => ∀ rows, kept = some rows → TookRows made rows) (acquired g budget)
      made := by
  induction budget generalizing made with
  | zero => trivial
  | succ budget ih =>
    refine ⟨trivial, fun answer _ => ?_⟩
    cases answer with
    | waits => exact ih _
    | cached rows =>
      rintro _ ⟨⟩
      exact ⟨.acquire g, .cached rows, List.mem_cons_self, rfl⟩
    | scans => exact fun _ => nofun

theorem tells_bulkRows : tells TookRows (bulkRows budget g) made := by
  refine Traced.bind (tells_acquired budget made) fun made kept htook => ?_
  cases kept with
  | some rows => exact htook rows rfl
  | none =>
    refine Traced.bind (tells_suffix _ made) fun made rows _ => ?_
    exact ⟨trivial, fun answer _ => ⟨.keep rows, answer, List.mem_cons_self, rfl⟩⟩

theorem tells_snapshotRowsForCall (hbulk : m.isBulk = true) :
    tells (fun made items => ⟨.inSnapshot, false⟩ ∈ made ∨
      ∃ rows : SnapshotRows, items = rows.1 ++ rows.2 ∧ TookRows made rows)
      (snapshotRowsForCall budget g m) made := by
  show tells _ ((snapshotCall .inSnapshot).bind _) made
  refine tells_call fun inside => ?_
  cases inside with
  | true =>
    simp only [hbulk, Bool.and_self, if_true]
    refine Traced.bind tells_bulkRows fun made rows htook => ?_
    exact .inr ⟨rows, rfl, htook⟩
  | false =>
    simp only [Bool.false_and, Bool.false_eq_true, if_false]
    refine (tells_suffix _ _).mono (fun _ _ _ => trivial) (fun _ _ _ => trivial) fun made' _ h => ?_
    exact .inl (h.subset List.mem_cons_self)

/-- A bulk read writes nothing. -/
theorem worksOut_of_isBulk {now : Time} {rows : List (Item User)} {answer : m.Ans}
    {actions : List (Action User BotIdentity)} (hbulk : m.isBulk = true)
    (h : dynamoUsers.worksOut m now rows = .ok (answer, actions)) :
    actions = [] ∧ ∃ memory', m.run now (dynamoUsers.load (dynamoUsers.original rows)) =
      .ok (answer, memory') := by
  obtain ⟨memory', hrun, rfl⟩ := DynamoRepository.worksOut_eq_ok.mp h
  refine ⟨?_, memory', hrun⟩
  have hsame : memory' = dynamoUsers.load (dynamoUsers.original rows) := by
    cases m with
    | of c =>
      cases c with
      | findLinked | listAll | listPassPreferences =>
        exact (congrArg Prod.snd (Except.ok.inj hrun)).symm
      | _ => exact nomatch hbulk
    | _ => exact nomatch hbulk
  exact actions_eq_nil fun k => by rw [hsame]

theorem tells_invoke (hbulk : m.isBulk = true) :
    tells (fun made answer => AnsweredFrom made (some ⟨m, answer⟩)) (invoke budget g m) made := by
  have hreads : m.isMutating = false := by
    cases m with
    | of c => cases c <;> first | rfl | exact nomatch hbulk
    | _ => exact nomatch hbulk
  rw [invoke, hreads]
  refine Traced.bind (tells_snapshotRowsForCall hbulk) fun made items hitems => ?_
  show tells _ ((snapshotCall (.request .now)).bind _) made
  refine tells_call fun now => ?_
  cases hresult : dynamoUsers.worksOut m now items with
  | error fault => trivial
  | ok result =>
    obtain ⟨answer, actions⟩ := result
    obtain ⟨rfl, memory', hrun⟩ := worksOut_of_isBulk hbulk hresult
    simp only [List.isEmpty_nil, if_true]
    rintro m' answer' ⟨⟩ _ hopen
    rcases hitems with hclosed | ⟨rows, rfl, htook⟩
    · exact absurd (List.mem_cons_of_mem _ hclosed) hopen
    · exact ⟨rows, now, memory', htook.cons _, hrun⟩

theorem tells_program (job : UserTask) :
    tells AnsweredFrom ((userTasks budget).program job) made := by
  cases job with
  | batch lane =>
    refine ⟨trivial, fun _ _ => ⟨trivial, fun _ _ => ?_⟩⟩
    exact fun _ _ => nofun
  | call lane m =>
    by_cases hbulk : m.isBulk = true
    · exact Traced.bind (tells_invoke hbulk) fun made answer h => h
    · refine Traced.bind (tells_suffix _ made) fun made answer _ => ?_
      rintro m' answer' ⟨⟩ hbulk'
      exact absurd hbulk' hbulk

end Answers

/-! ## The law -/

section Law

variable {s₀ s : UserFleet} {history : List UserRecord} {i : SnapshotInput} {w w' : UserTables}

theorem Reflects.mono {time time' : List UserItems} {rows : SnapshotRows} (h : Reflects time rows)
    (htime : time ⊆ time') : Reflects time' rows := by
  intro identity
  obtain ⟨contents, hmem, hshown⟩ := h identity
  exact ⟨contents, htime hmem, hshown⟩

/-- What the tables held before a write of the history is older than what counts as fresh. -/
def WrittenBefore (history : List UserRecord) (w : UserTables) : Prop :=
  ∀ job actions before after,
    .called job (.request (.transactWriteItems actions)) before .committed after ∈ history →
      before.contents <:+ w.older

/-- Rows are taken fresh, and answers come from rows that were taken. -/
def SnapshotLaw (budget : Nat) (record : UserRecord) (earlier : List UserRecord) : Prop :=
  (∀ job c w answer w' rows, record = .called job c w answer w' → Takes c answer rows →
    Reflects w.since rows ∧ WrittenBefore earlier w) ∧
  ∀ job value, record = .finished job value →
    AnsweredFrom (callsSince (userTasks budget) ((userTasks budget).group job) earlier) value

/-- What the repository object and the tables have to do with the history. -/
structure Consistent (budget : Nat) (history : List UserRecord) (w : UserTables) : Prop where
  kept : ∀ rows, w.rows = some rows → Reflects w.since rows
  written : WrittenBefore history w
  contents : ∀ job c before answer after, .called job c before answer after ∈ history →
    before.contents <:+ w.contents
  law : Along (SnapshotLaw budget) history

/-- A call leaves the past alone, or it is a transaction that is taken. -/
theorem perform_cases (place : BotIdentity → Nat) (c : SnapshotCall) :
    (c.perform place i w).2.since = w.since ∧ (c.perform place i w).2.older = w.older ∨
      ∃ actions items, c = .request (.transactWriteItems actions) ∧
        (SnapshotCall.request (.transactWriteItems actions)).perform place i w =
          (.committed, w.committed items) := by
  cases c with
  | request c =>
    rcases perform_request place (i := i) (w := w) c with
      hsame | ⟨actions, items, rfl, hcommitted⟩
    · exact .inl ⟨by rw [hsame], by rw [hsame]⟩
    · exact .inr ⟨actions, items, rfl, hcommitted⟩
  | page telegram vk => exact .inl ⟨by rw [perform_page], by rw [perform_page]⟩
  | acquire holder =>
    left
    simp only [SnapshotCall.perform]
    split
    · exact ⟨rfl, rfl⟩
    · split <;> exact ⟨rfl, rfl⟩
  | _ => exact .inl ⟨rfl, rfl⟩

/-- Rows that are kept after a call were kept before it, or it keeps them. -/
theorem rows_perform {c : SnapshotCall} {rows : SnapshotRows}
    (h : (c.perform place i w).2.rows = some rows) : w.rows = some rows ∨ c = .keep rows := by
  cases c with
  | request c =>
    rcases perform_request place (i := i) (w := w) c with
      hsame | ⟨actions, items, rfl, hcommitted⟩
    · exact .inl (hsame ▸ h)
    · rw [hcommitted] at h
      exact .inl h
  | page telegram vk => exact .inl (by rwa [perform_page] at h)
  | acquire holder =>
    left
    simp only [SnapshotCall.perform] at h
    split at h
    · exact h
    · split at h <;> exact h
  | keep kept => exact .inr (congrArg SnapshotCall.keep (Option.some.inj h))
  | exit =>
    left
    simp only [SnapshotCall.perform] at h
    split at h
    · exact nomatch h
    · exact h
  | invalidate =>
    left
    simp only [SnapshotCall.perform] at h
    split at h
    · exact nomatch h
    · exact h
  | _ => exact .inl h

/-- Rows that a coroutine takes are those that are kept, or those that it keeps. -/
theorem takes_perform {c : SnapshotCall} {rows : SnapshotRows}
    (h : Takes c (c.perform place i w).1 rows) : w.rows = some rows ∨ c = .keep rows := by
  cases c with
  | acquire holder =>
    left
    simp only [SnapshotCall.perform] at h
    split at h
    · exact h.elim
    · split at h
      · next kept hkept =>
        rw [hkept]
        exact congrArg some (Eq.symm h)
      · exact h.elim
  | keep kept => exact .inr (congrArg SnapshotCall.keep (Eq.symm h))
  | _ => exact h.elim

theorem older_suffix (c : SnapshotCall) :
    w.older <:+ (c.perform place i w).2.older := by
  rcases perform_cases place (i := i) (w := w) c with
    ⟨-, hsame⟩ | ⟨actions, items, rfl, hcommitted⟩
  · simpa only [hsame] using List.suffix_refl w.older
  · rw [hcommitted]
    exact List.suffix_append _ _

theorem contents_suffix (c : SnapshotCall) :
    w.contents <:+ (c.perform place i w).2.contents := by
  rcases perform_cases place (i := i) (w := w) c with
    ⟨hsince, hsame⟩ | ⟨actions, items, rfl, hcommitted⟩
  · simpa only [UserTables.contents, hsince, hsame] using List.suffix_refl (w.since ++ w.older)
  · rw [hcommitted]
    exact List.suffix_cons _ _

theorem Consistent.called {g : Nat} {job : UserTask} {c : SnapshotCall}
    (h : Consistent budget s.history s.world) (hl : CarefulWrites place s (.call g i))
    (hcalls : s.Calls g job c) (hkeep : ∀ rows, c = .keep rows → Reflects s.world.since rows) :
    Consistent budget
      (.called job c s.world (c.perform place i s.world).1 (c.perform place i s.world).2 :: s.history)
      (c.perform place i s.world).2 := by
  -- Rows are fresh while nothing is written, and a write finds none.
  have hfresh (rows : SnapshotRows) (hrows : s.world.rows = some rows ∨ c = .keep rows) :
      Reflects s.world.since rows := by
    rcases hrows with hrows | hrows
    · exact h.kept rows hrows
    · exact hkeep rows hrows
  refine ⟨fun rows hrows => ?_, ?_, ?_, ⟨?_, fun _ _ => nofun⟩, h.law⟩
  · rcases perform_cases place (i := i) (w := s.world) c with
      ⟨hsince, -⟩ | ⟨actions, items, rfl, hcommitted⟩
    · rw [hsince]
      exact hfresh rows (rows_perform hrows)
    · have hfree := hl.2 g i job actions rfl hcalls.pending (by rw [hcommitted])
      rw [hcommitted] at hrows
      exact nomatch hfree.2.symm.trans hrows
  · intro job' actions before after hmem
    rcases List.mem_cons.mp hmem with hnew | hold
    · injection hnew with hjob hc hbefore hanswer hafter
      subst hc hbefore
      obtain ⟨items, hcommitted⟩ := committed_of_answer (eq_of_heq hanswer).symm
      rw [hcommitted]
      exact List.suffix_refl _
    · exact (h.written job' actions before after hold).trans (older_suffix c)
  · intro job' c' before answer after hmem
    rcases List.mem_cons.mp hmem with hnew | hold
    · injection hnew with hjob hc hbefore hanswer hafter
      rw [hbefore]
      exact contents_suffix c
    · exact (h.contents job' c' before answer after hold).trans (contents_suffix c)
  · intro job' c' w answer w' rows hrecord htakes
    injection hrecord with hjob hc hw hanswer hw'
    subst hc hw
    obtain rfl := eq_of_heq hanswer
    exact ⟨hfresh rows (takes_perform htakes), h.written⟩

/-- What the run keeps: the repository object agrees with the history. -/
theorem consistent_reached
    (hs : Fleet.Reaches (userTasks budget) (userTables place) (CarefulWrites place) s₀ s)
    (hidle : s₀.Idle) (hhistory : s₀.history = []) (hitems : s₀.world.items ∈ s₀.world.since)
    (hrows : s₀.world.rows = none) : Consistent budget s.history s.world := by
  have hstart : Consistent budget [] s₀.world := by
    refine ⟨?_, ?_, ?_, trivial⟩
    · intro rows h
      exact nomatch hrows.symm.trans h
    · exact fun _ _ _ _ h => absurd h List.not_mem_nil
    · exact fun _ _ _ _ _ h => absurd h List.not_mem_nil
  refine (hs.reached.settled_rule (A := fun _ _ => True) (T := fun _ _ _ => True)
    (X := fun _ _ _ => True) (Q := fun _ made value => AnsweredFrom made value) (Z := fun _ => True)
    (Consistent budget) hidle hhistory hstart trivial (fun _ _ _ _ _ _ => trivial)
    (fun job made _ => tells_program job) (fun _ _ _ => trivial) ?_ ?_ ?_).1
  · intro s w hl h
    obtain ⟨items, rfl⟩ := hl.1.1
    refine ⟨fun rows hrows => ?_, h.written, ?_, h.law⟩
    · exact (h.kept rows hrows).mono (List.subset_cons_self _ _)
    · intro job c before answer after hmem
      exact (h.contents job c before answer after hmem).trans (List.suffix_cons _ _)
  · intro s g i job c hl hcalls _ _ h
    refine h.called hl.1 hcalls fun rows hkeep => ?_
    subst hkeep
    exact keeps_fresh hl.2 hidle hitems hcalls
  · intro s g job value _ _ hgroup hanswered h
    refine ⟨h.kept, ?_, ?_, ⟨fun _ _ _ _ _ _ => nofun, ?_⟩, h.law⟩
    · intro job' actions before after hmem
      rcases List.mem_cons.mp hmem with hnew | hold
      · exact nomatch hnew
      · exact h.written job' actions before after hold
    · intro job' c before answer after hmem
      rcases List.mem_cons.mp hmem with hnew | hold
      · exact nomatch hnew
      · exact h.contents job' c before answer after hold
    · rintro _ _ ⟨⟩
      rw [hgroup]
      exact hanswered

/-- **Bulk reads are fresh.** In every run whose writes are taken while no scan is under way and no
rows are kept, a bulk read of a batch shows what the tables have held since. -/
theorem bulk_reads_fresh {items : UserItems}
    (hs : Fleet.Reaches (userTasks budget) (userTables place) (CarefulWrites place) s₀ s)
    (hidle : s₀.Idle) (hhistory : s₀.history = []) (hworld : s₀.world = .fresh items) :
    FreshReads budget s := by
  have hconsistent := consistent_reached hs hidle hhistory
    (by rw [hworld]; exact List.mem_singleton_self items) (by rw [hworld]; rfl)
  intro later g m answer during job actions before after earlier hrun hbulk hstarts hopen
  have hlaw := hconsistent.law
  rw [hrun] at hlaw
  have hanswered : AnsweredFrom (callsSince (userTasks budget) g during) (some ⟨m, answer⟩) :=
    hstarts ▸ hlaw.at.2 _ _ rfl
  obtain ⟨rows, now, memory', ⟨c, taken, htaken, htakes⟩, hanswer⟩ :=
    hanswered m answer rfl hbulk hopen
  -- The rows were taken after the write, when what they show had been held since.
  obtain ⟨reader, w, w', hrecord⟩ := mem_callsSince htaken
  obtain ⟨newer, older, rfl⟩ := List.append_of_mem hrecord
  have hread : (Record.called reader c w taken w' : UserRecord) ∈ s.history := by
    rw [hrun]
    simp
  have hsplit : s.history = (later ++ .finished (.call g m) (some ⟨m, answer⟩) :: newer) ++
      .called reader c w taken w' :: (older ++
        .called job (.request (.transactWriteItems actions)) before .committed after :: earlier) := by
    rw [hrun]
    simp
  have hlaw' := hconsistent.law
  rw [hsplit] at hlaw'
  obtain ⟨hreflects, hwritten⟩ := hlaw'.at.1 _ _ _ _ _ rows rfl htakes
  obtain ⟨between, hbetween⟩ := hwritten job actions before after (by simp)
  obtain ⟨recent, hrecent⟩ := hconsistent.contents _ _ _ _ _ hread
  refine ⟨recent ++ (w.since ++ between), now, _, memory', ?_, hanswer, fun identity => ?_⟩
  · rw [← hrecent, UserTables.contents, ← hbetween]
    simp
  · obtain ⟨contents, hmem, hshown⟩ := hreflects identity
    exact ⟨contents, by simp [hmem], by rw [find?_load, hshown]⟩

end Law

/-! ## A write beside a scan -/

section Samples

/-- The steps of coroutines, with writes that are careful. -/
def carefulStep (place : BotIdentity → Nat) (s : UserFleet) : UserLabel → Bool
  | .outside _ | .abandon _ => false
  | .call g i =>
    match s.pending g with
    | some (_, .request (.transactWriteItems actions)) =>
      ((SnapshotCall.request (.transactWriteItems actions)).perform place i s.world).1 ≠ .committed ||
        (s.world.holder.isNone && s.world.rows.isNone)
    | _ => true
  | _ => true

theorem careful_of_step {s : UserFleet} {l : UserLabel} (h : carefulStep place s l = true) :
    CarefulWrites place s l := by
  constructor
  · cases l <;> trivial
  · rintro g i job actions rfl hpending hcommitted
    simp only [carefulStep, hpending, hcommitted, Bool.or_eq_true, Bool.and_eq_true,
      Option.isNone_iff_eq_none] at h
    rcases h with h | h
    · simp at h
    · exact h

def listedPlayer : User :=
  .telegram { tgId := 1 }

def savedPlayer : User :=
  .telegram { tgId := 1, telegramHandle := some "@player_one" }

def playerTables : UserItems :=
  .ofList [⟨0, listedPlayer⟩]

def batchStart : UserFleet :=
  { world := .fresh playerTables }

def byNumber (identity : BotIdentity) : Nat :=
  identity.platformUserId

/-- A batch that stays open. -/
def openBatch : List UserLabel :=
  [.publish (.batch 0), .start 0, .call 0 {}]

def listIn (lane : Nat) : List UserLabel :=
  .publish (.call lane (.of .listAll)) :: Fleet.attempt lane 6 {} (.finish lane)

/-- The save throws the rows away and loads the player, and has its transaction to come. -/
def startSave : List UserLabel :=
  [.publish (.call 1 (.of (.save savedPlayer))), .start 1, .call 1 {}, .call 1 {}, .call 1 {}, .call 1 {}]

def endSave : List UserLabel :=
  [.call 1 {}, .finish 1]

/-- The users that a finished call has listed. -/
def listed : UserRecord → Option (List User)
  | .finished _ (some ⟨.of .listAll, users⟩) => some users
  | _ => none

abbrev playBatch (schedule : List UserLabel) : UserFleet :=
  batchStart.play (userTasks 3) (userTables byNumber) schedule

/-- A save between two listings, with no scan beside it. -/
theorem fresh_after_save :
    (playBatch (openBatch ++ listIn 2 ++ startSave ++ endSave ++ listIn 3)).history.filterMap listed =
      [[savedPlayer], [listedPlayer]] ∧
    FreshReads 3 (playBatch (openBatch ++ listIn 2 ++ startSave ++ endSave ++ listIn 3)) := by
  refine ⟨by decide +kernel, ?_⟩
  have hmeets : Fleet.Meets (userTasks 3) (userTables byNumber)
      (fun s l => carefulStep byNumber s l = true) batchStart
      (openBatch ++ listIn 2 ++ startSave ++ endSave ++ listIn 3) := by
    decide +kernel
  have hreaches := (Fleet.Reaches.refl.play_meets hmeets).mono fun _ _ => careful_of_step
  exact bulk_reads_fresh hreaches (fun _ => rfl) rfl rfl

/-- The steps of coroutines, careful or not. -/
def ownStep : UserLabel → Bool
  | .outside _ | .abandon _ => false
  | _ => true

theorem coroutines_of_ownStep {s : UserFleet} {l : UserLabel} (h : ownStep l = true) :
    Coroutines s l := by
  cases l <;> trivial

/-- A coroutine has found the snapshot closed. -/
def foundClosed : snapshotCalls.Entry → Bool
  | ⟨.inSnapshot, inside⟩ => !inside
  | _ => false

theorem not_closed {made : List snapshotCalls.Entry} (h : made.any foundClosed = false) :
    ⟨.inSnapshot, false⟩ ∉ made := by
  intro hmem
  rw [List.any_eq_false] at h
  exact h _ hmem rfl

/-- A listing that scans while the save has its transaction to come keeps the old rows, and the
listing after the save shows them. -/
theorem stale_after_save :
    Fleet.Reaches (userTasks 3) (userTables byNumber) Coroutines batchStart
      (playBatch (openBatch ++ startSave ++ listIn 2 ++ endSave ++ listIn 3)) ∧
    ¬FreshReads 3 (playBatch (openBatch ++ startSave ++ listIn 2 ++ endSave ++ listIn 3)) := by
  have hsteps : (openBatch ++ startSave ++ listIn 2 ++ endSave ++ listIn 3).all ownStep = true := rfl
  refine ⟨Fleet.Reaches.refl.play fun s l hl => coroutines_of_ownStep
    (List.all_eq_true.mp hsteps l hl), fun hfresh => ?_⟩
  obtain ⟨time, now, memory, memory', hcontents, hanswer, hmemory⟩ :=
    hfresh [] 3 (.of .listAll) [listedPlayer] [_, _, _, _] _ _ _ _ _ rfl rfl rfl (not_closed rfl)
  -- The tables have held nothing but the new profile since the save was taken.
  have htime : time.length = 1 := by
    have hlength := congrArg List.length hcontents
    rw [List.length_append] at hlength
    exact Nat.add_right_cancel hlength.symm
  have hnew : ∀ contents ∈ time, (contents.find? ⟨.telegram, 1⟩).map Item.document =
      some savedPlayer := by
    have htake : time = (playBatch
        (openBatch ++ startSave ++ listIn 2 ++ endSave ++ listIn 3)).world.contents.take 1 := by
      rw [hcontents, ← htime, List.take_left]
    rw [htake]
    rintro contents (_ | ⟨_, ⟨⟩⟩)
    rfl
  have hold : memory.rows = [listedPlayer] := congrArg Prod.fst (Except.ok.inj hanswer)
  obtain ⟨contents, hmem, hshown⟩ := hmemory ⟨.telegram, 1⟩
  rw [hnew contents hmem, Table.find?, hold] at hshown
  exact absurd hshown (by decide)

end Samples

end LarpBot
