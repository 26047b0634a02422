import LarpBot.Laws.ClosingStages

/-!
# What stops the statistics

A domain error of the statistics is final for their command: the worker deletes it, and where the
author is the system nobody is told. Entering a game raises one where a master has no profile, a name
is not one that the statistics take, a player of the chat has no name, or a workbook refuses. Nothing
that `addGame` does besides can raise one as long as the games it works on stay stored, whatever else
happens between its calls.
-/

namespace LarpBot

open Atomic Act
open Prog (Makes)

/-! ## Programs without domain errors -/

section Rules

variable {E : Surround World Input} {α β : Type} {w : World}

/-- A program that raises no domain error, whatever happens between its calls. -/
abbrev endures (E : Surround World Input) (Q : α → World → Prop) (p : Act α) (w : World) : Prop :=
  wp storage E (fun _ _ _ => True) Q (fun e _ => ∀ error, e ≠ .domain error) p w

theorem endures_mono {Q R : α → World → Prop} {p : Act α} (hp : endures E R p w)
    (hQ : ∀ a w, R a w → Q a w) : endures E Q p w :=
  wp_mono hp hQ fun _ _ h => h

theorem endures_and {Q R : α → World → Prop} {p : Act α} (hp : endures E Q p w)
    (hp' : endures E R p w) : endures E (fun a w => Q a w ∧ R a w) p w :=
  wp_weaken (wp_mono (wp_and hp hp') (fun _ _ h => h) fun _ _ h => h.1) (fun _ _ h => h)
    (fun _ h => h) fun _ _ _ _ => trivial

theorem endures_seq {p : Act α} {f : α → Act β} {R : α → World → Prop} {Q : β → World → Prop}
    (hp : endures E R p w) (hf : ∀ a w, R a w → endures E Q (f a) w) :
    endures E Q (p >>= f) w :=
  wp_bind.mpr (wp_mono hp hf fun _ _ h => h)

/-- A program whose value does not matter. -/
theorem endures_then {p : Act α} {f : α → Act β} {Q : β → World → Prop} {R : α → World → Prop}
    (hp : endures E R p w) (hf : ∀ a w, endures E Q (f a) w) : endures E Q (p >>= f) w :=
  endures_seq hp fun a w _ => hf a w

theorem endures_call {c : Call} {f : c.Ans → Act β} {Q : β → World → Prop}
    (h : ∀ w', E.moves w w' → ∀ i, E.admits i →
      endures E Q (f (c.perform i w').1) (c.perform i w').2) :
    endures E Q (one c >>= f) w := by
  intro w' hw' i hi
  exact ⟨trivial, h w' hw' i hi⟩

/-- A call whose answer does not matter. -/
theorem endures_one {c : Call} : endures E (fun _ _ => True) (one c) w :=
  fun _ _ _ _ => ⟨trivial, trivial⟩

theorem endures_present {integration : String} {o : Option α} {f : α → Act β}
    {Q : β → World → Prop} (h : ∀ a, o = some a → endures E Q (f a) w) :
    endures E Q (present integration o >>= f) w := by
  cases o with
  | none => exact fun error => nofun
  | some a => exact h a rfl

theorem endures_value {o : Except Fault α} {f : α → Act β} {Q : β → World → Prop}
    (h : ∀ a, o = .ok a → endures E Q (f a) w) : endures E Q (value o >>= f) w := by
  cases o with
  | error fault => exact fun error => nofun
  | ok a => exact h a rfl

/-- An integration that is asked for its effect. -/
theorem endures_asked (integration : String) (c : OutsideCall) {f : c.Ans → Option α} :
    endures E (fun _ _ => True) (do present integration (f (← outside c))) w := by
  refine endures_call fun w' _ i _ => ?_
  cases f (Call.perform (.outside c) i w').1 with
  | none => exact fun error => nofun
  | some a => trivial

/-- A traversal keeps what each of its items keeps, and so do its answers. -/
theorem endures_traverse_all {f : α → Act β} {as : List α} (P : World → Prop) (R : β → Prop)
    (hP : P w) (hf : ∀ a ∈ as, ∀ w, P w → endures E (fun b w' => P w' ∧ R b) (f a) w) :
    endures E (fun bs w' => P w' ∧ ∀ b ∈ bs, R b) (Prog.traverse f as) w := by
  induction as generalizing w with
  | nil => exact ⟨hP, fun b hb => absurd hb List.not_mem_nil⟩
  | cons a as ih =>
    refine endures_seq (hf a List.mem_cons_self w hP) fun b w₁ ⟨h₁, hb⟩ => ?_
    have hrest := ih h₁ fun a' ha' => hf a' (List.mem_cons_of_mem a ha')
    exact endures_seq hrest fun bs w₂ ⟨h₂, hbs⟩ => ⟨h₂, List.forall_mem_cons.mpr ⟨hb, hbs⟩⟩

theorem endures_traverse {f : α → Act β} {as : List α} (P : World → Prop) (hP : P w)
    (hf : ∀ a ∈ as, ∀ w, P w → endures E (fun _ w' => P w') (f a) w) :
    endures E (fun _ w' => P w') (Prog.traverse f as) w := by
  refine endures_mono (endures_traverse_all P (fun _ => True) hP ?_) fun _ _ h => h.1
  exact fun a ha w hw => endures_mono (hf a ha w hw) fun _ _ h => ⟨h, trivial⟩

/-- Items that are only read. -/
theorem endures_reads {f : α → Act β} {as : List α}
    (hf : ∀ a w, endures E (fun _ _ => True) (f a) w) :
    endures E (fun _ _ => True) (Prog.traverse f as) w :=
  endures_traverse (fun _ => True) trivial fun a _ w _ => hf a w

/-- A failure inside a task group is no domain error. -/
theorem endures_inTaskGroup {p : Act α} {Q : α → World → Prop}
    (hp : wp storage E (fun _ _ _ => True) Q (fun _ _ => True) p w) :
    endures E Q (inTaskGroup p) w :=
  wp_catching.mpr (wp_mono hp (fun _ _ h => h) fun _ _ _ _ => nofun)

end Rules

/-! ## What is relied on -/

/-- Games stay stored, and their public tables stay attached. -/
structure Keeps (w w' : World) : Prop where
  stored : ∀ eventId, (w.events.get eventId).isSome → (w'.events.get eventId).isSome
  tables : ∀ eventId, w.events.Has eventId (·.publicTableResourcePath.isSome) →
    w'.events.Has eventId (·.publicTableResourcePath.isSome)

namespace Keeps

variable {w w' w'' : World}

theorem refl (w : World) : Keeps w w :=
  ⟨fun _ h => h, fun _ h => h⟩

theorem trans (h : Keeps w w') (h' : Keeps w' w'') : Keeps w w'' :=
  ⟨fun eventId hw => h'.stored eventId (h.stored eventId hw),
    fun eventId hw => h'.tables eventId (h.tables eventId hw)⟩

theorem of_rewrites {events : Events} {f : Event → Event} {leaders : Leaders}
    (h : Events.Rewrites f w.events events)
    (htable : ∀ e, e.publicTableResourcePath.isSome → (f e).publicTableResourcePath.isSome) :
    Keeps w { w with events := events, leaders := leaders } := by
  constructor
  · intro eventId hstored
    obtain ⟨event, hevent⟩ := Option.isSome_iff_exists.mp hstored
    obtain ⟨event', hevent', -⟩ := h.has (p := fun _ => true) (fun _ _ => rfl) ⟨event, hevent, rfl⟩
    exact Option.isSome_iff_exists.mpr ⟨event', hevent'⟩
  · exact fun eventId => h.has htable

theorem of_maintains (h : Maintains w w') : Keeps w w' := by
  refine ⟨fun eventId hstored => ?_, h.tables⟩
  obtain ⟨event, hevent⟩ := Option.isSome_iff_exists.mp hstored
  obtain ⟨event', hevent', -⟩ := h.get hevent
  exact Option.isSome_iff_exists.mpr ⟨event', hevent'⟩

/-- The statistics take no game away. -/
theorem of_quiet {c : Call} (hc : c.IsQuiet) (i : Input) (w : World) : Keeps w (c.perform i w).2 := by
  have maintained {c : Call} (hc : c.IsMaintenance anyWorkbook) : Keeps w (c.perform i w).2 :=
    of_maintains (maintains_perform hc i w)
  cases c with
  | users c => exact ⟨fun _ h => h, fun _ h => h⟩
  | events c =>
    cases c with
    | setPassTable => exact of_rewrites Events.rewrites_when fun _ h => h
    | _ => exact maintained hc
  | registrations c => exact ⟨fun _ h => h, fun _ h => h⟩
  | outside c =>
    refine ⟨fun eventId h => ?_, fun eventId h => ?_⟩
    · rw [Call.perform, c.events_record]
      exact h
    · rw [Call.perform, c.events_record]
      exact h
  | _ => exact maintained hc

end Keeps

/-- What the others leave alone while the statistics of a game are at work: no game is deleted, and
this one is neither archived nor given a pass table, its close is not undone, and who its masters are
does not change. -/
structure Leaves (eventId : EventId) (w w' : World) : Prop extends Keeps w w' where
  archived : w'.events.Has eventId (·.archivedAt.isSome) → w.events.Has eventId (·.archivedAt.isSome)
  completed : w.events.Has eventId (·.scheduledCloseCompletedAt.isSome) →
    w'.events.Has eventId (·.scheduledCloseCompletedAt.isSome)
  passTable : w'.events.Has eventId (·.passTableResourcePath.isSome) →
    w.events.Has eventId (·.passTableResourcePath.isSome)
  leaders : w'.leaders.listLeaders eventId = w.leaders.listLeaders eventId
  linked : ∀ user, (w'.users.findLinked user).map User.identity =
    (w.users.findLinked user).map User.identity

namespace Leaves

variable {eventId : EventId} {w w' w'' : World}

theorem refl (w : World) : Leaves eventId w w :=
  { Keeps.refl w with
    archived := fun h => h
    completed := fun h => h
    passTable := fun h => h
    leaders := rfl
    linked := fun _ => rfl }

theorem trans (h : Leaves eventId w w') (h' : Leaves eventId w' w'') : Leaves eventId w w'' :=
  { h.toKeeps.trans h'.toKeeps with
    archived := fun hw => h.archived (h'.archived hw)
    completed := fun hw => h'.completed (h.completed hw)
    passTable := fun hw => h.passTable (h'.passTable hw)
    leaders := h'.leaders.trans h.leaders
    linked := fun user => (h'.linked user).trans (h.linked user) }

theorem of_maintains (h : Maintains w w') : Leaves eventId w w' := by
  -- a mark that is part of the core is as it was
  have same {g : Event → Bool} (hg : ∀ event, g event.core = g event) :
      w'.events.Has eventId g ↔ w.events.Has eventId g := by
    have hcore := Events.core_get h.events eventId
    have has (t : Events) : t.Has eventId g ↔ ∃ event, (t.get eventId).map Event.core = some event ∧
        g event := by
      constructor
      · rintro ⟨event, hevent, hmark⟩
        exact ⟨event.core, by rw [hevent, Option.map_some], (hg event).symm ▸ hmark⟩
      · rintro ⟨core, hmapped, hmark⟩
        obtain ⟨event, hevent, rfl⟩ := Option.map_eq_some_iff.mp hmapped
        exact ⟨event, hevent, hg event ▸ hmark⟩
    rw [has, has, hcore]
  exact
    { Keeps.of_maintains h with
      archived := (same fun _ => rfl).mp
      completed := (same fun _ => rfl).mpr
      passTable := (same fun _ => rfl).mp
      leaders := by rw [h.leaders]
      linked := fun user => by rw [h.users] }

end Leaves

/-- A table is refused where there is one already. -/
theorem table_of_refused {t : Events} {now : Time} {eventId : EventId} {path url : String}
    {google : Option String} (hstored : (t.get eventId).isSome)
    (h : (t.setPublicTable now eventId path url google).1 = false) :
    (t.setPublicTable now eventId path url google).2.Has eventId
      (·.publicTableResourcePath.isSome) := by
  obtain ⟨event, hevent⟩ := Option.isSome_iff_exists.mp hstored
  unfold Events.setPublicTable Events.when at h ⊢
  rw [hevent] at h ⊢
  dsimp only at h ⊢
  split at h
  · cases h
  · next hurl =>
    rw [if_neg hurl]
    refine ⟨event, hevent, event.public_table_atomic.trans ?_⟩
    simpa [Option.isSome_iff_ne_none] using hurl

/-! ## The migration of a game -/

section Migration

variable {E : Surround World Input} {α : Type} {w : World} (bot : Deployment)
  (hmoves : ∀ w w', E.moves w w' → Keeps w w')
include hmoves

/-- What the statistics keep, however they end. -/
theorem keeps_quiet {p : Act α} {Q : α → Prop} (hp : quiet Q p) :
    wp storage E (fun _ _ _ => True) (fun a w' => Keeps w w' ∧ Q a) (fun _ w' => Keeps w w') p w :=
  wp_keeps_of_makes Keeps.refl (fun _ _ _ => Keeps.trans) hmoves hp
    (fun _ i _ _ => plausible_perform (respects_anyWorkbook i) fun _ _ => trivial)
    fun _ i w hop _ => Keeps.of_quiet hop i w

theorem endures_quiet {p : Act α} {Q : α → Prop} (hp : quiet Q p)
    (h : endures E (fun _ _ => True) p w) : endures E (fun a w' => Keeps w w' ∧ Q a) p w :=
  wp_mono (wp_weaken (wp_and (keeps_quiet hmoves hp) h) (fun _ _ h => h) (fun _ h => h)
    fun _ _ _ _ => trivial) (fun _ _ h => h.1) fun _ _ h => h.2

theorem endures_ensurePublicTable {event : Event} {rows : List Registration}
    (hevent : (w.events.get event.eventId).isSome) :
    endures E (fun _ _ => True) (ensurePublicTable bot event rows) w := by
  unfold ensurePublicTable
  split
  · trivial
  · refine endures_call fun w₁ h₁ i _ => endures_present fun created _ => ?_
    cases created with
    | none => trivial
    | some publicUrl =>
      refine endures_call fun w₂ h₂ i _ => ?_
      have hstored := ((hmoves w w₁ h₁).trans (hmoves _ _ h₂)).stored _ hevent
      cases hanswer : (Call.perform (.events (.setPublicTable event.eventId
          (publicTablePath bot event.eventId event.name) publicUrl
          (if bot.mirrorsGoogleTables then some publicUrl else none))) i w₂).1 with
      | true => trivial
      | false =>
        have htable := table_of_refused hstored hanswer
        refine endures_call fun w₃ h₃ i _ => ?_
        obtain ⟨found, hfound, hpath⟩ := (hmoves _ _ h₃).tables _ htable
        have hread : (Call.perform (.events (.get event.eventId)) i w₃).1 = some found := hfound
        rw [hread, Option.filter_some, if_pos hpath]
        dsimp only
        unfold whenever
        split
        · exact endures_then (endures_asked _ _) fun _ _ => trivial
        · trivial

theorem endures_refreshWithRows {event : Event} (hevent : (w.events.get event.eventId).isSome) :
    endures E (fun _ _ => True) (refreshWithRows bot event) w := by
  refine endures_call fun w₁ h₁ i _ => ?_
  have hstored := (hmoves _ _ h₁).stored _ hevent
  refine endures_then (endures_ensurePublicTable bot hmoves hstored) fun event' w₂ => ?_
  refine endures_then (R := fun _ _ => True) ?_ fun answers w₃ => ?_
  · split
    · trivial
    · exact endures_call fun _ _ _ _ => trivial
  · refine endures_call fun w₄ _ i _ => endures_present fun urls _ => ?_
    split
    · trivial
    · exact endures_call fun _ _ _ _ => endures_call fun _ _ _ _ => trivial

theorem endures_refresh {event : Event} (hevent : (w.events.get event.eventId).isSome) :
    endures E (fun _ _ => True) (refresh bot event) w :=
  endures_then (endures_refreshWithRows bot hmoves hevent) fun _ _ => trivial

/-- The migration of a stored game. -/
theorem endures_migration {event : Event} (hevent : (w.events.get event.eventId).isSome) :
    endures E (fun event' w' => Keeps w w' ∧ event'.eventId = event.eventId) (ensureMigrated bot event) w := by
  suffices endures E (fun _ _ => True) (ensureMigrated bot event) w by
    have hcalls : makes anyWorkbook (Call.IsMaintenance anyWorkbook)
        ((anyWorkbook : Legal).Follows event) (ensureMigrated bot event) :=
      maintenance_ensureMigrated bot trivial
    exact endures_mono (endures_quiet hmoves (quiet_of_maintenance hcalls) this) fun _ _ h => ⟨h.1, h.2.id⟩
  unfold ensureMigrated
  split
  · trivial
  · next hmigrated =>
    have himport : quiet (fun _ => True) (whenever bot.legacyRegistrationImports do
        let legacy ← present "read_legacy_registrations"
          (← outside (.readLegacyRegistrations event))
        registrations (.importMissing (legacy.map (LegacyRow.toRegistration event.eventId)))) := by
      have hnone : event.registrationsMigratedAt = none := by simpa using hmigrated
      refine makes_whenever (makes_call trivial fun _ _ => (makes_present _ _).bind fun legacy _ => ?_)
      exact makes_any (makes_one ⟨event, legacy, trivial, hnone, trivial, rfl⟩)
    refine endures_seq (endures_quiet hmoves himport ?_) fun _ w₁ h₁ => ?_
    · unfold whenever
      split
      · exact endures_call fun _ _ _ _ => endures_present fun _ _ =>
          endures_one (c := .registrations (.importMissing _))
      · trivial
    · refine endures_then (endures_refresh bot hmoves (h₁.1.stored _ hevent)) fun _ _ => ?_
      refine endures_call fun _ _ _ _ => endures_call fun _ _ _ _ => ?_
      exact endures_value fun _ _ => trivial

end Migration

section Tables

variable {E : Surround World Input} {eventId : EventId} {α : Type} {w : World} (bot : Deployment)
  (hmoves : ∀ w w', E.moves w w' → Leaves eventId w w')
include hmoves

theorem keeps_moves : ∀ w w', E.moves w w' → Keeps w w' :=
  fun w w' h => (hmoves w w' h).toKeeps

/-- What maintenance leaves alone is known where it raises no domain error. -/
theorem endures_maintenance {p : Act α} {Q : α → Prop}
    (hp : makes anyWorkbook (Call.IsMaintenance anyWorkbook) Q p)
    (h : endures E (fun _ _ => True) p w) :
    endures E (fun a w' => Leaves eventId w w' ∧ Q a) p w := by
  have hleaves := wp_keeps_of_makes (h := storage) (E := E) (w := w) Leaves.refl
    (fun _ _ _ => Leaves.trans) hmoves hp
    (fun _ i _ _ => plausible_perform (respects_anyWorkbook i) fun _ _ => trivial)
    fun _ i w hop _ => Leaves.of_maintains (maintains_perform hop i w)
  exact wp_mono (wp_weaken (wp_and hleaves h) (fun _ _ h => h) (fun _ h => h) fun _ _ _ _ => trivial)
    (fun _ _ h => h.1) fun _ _ h => h.2

theorem endures_ensureMigrated {event : Event} (hevent : (w.events.get event.eventId).isSome) :
    endures E (fun event' w' => Leaves eventId w w' ∧ event'.eventId = event.eventId)
      (ensureMigrated bot event) w := by
  have hcalls : makes anyWorkbook (Call.IsMaintenance anyWorkbook)
      ((anyWorkbook : Legal).Follows event) (ensureMigrated bot event) :=
    maintenance_ensureMigrated bot trivial
  have hmigration := endures_mono (endures_migration bot (keeps_moves hmoves) hevent) fun _ _ _ => trivial
  exact endures_mono (endures_maintenance hmoves hcalls hmigration) fun _ _ h => ⟨h.1, h.2.id⟩

/-! ## Scans -/

/-- A game that is read is stored. -/
theorem endures_storedEvent {eventId : EventId} (hevent : (w.events.get eventId).isSome) :
    endures E (fun event w' => Keeps w w' ∧ event.eventId = eventId) (storedEvent eventId) w := by
  refine endures_quiet (keeps_moves hmoves) (quiet_storedEvent eventId) ?_
  refine endures_call fun w₁ h₁ i _ => ?_
  obtain ⟨event, hstored⟩ := Option.isSome_iff_exists.mp ((hmoves _ _ h₁).stored _ hevent)
  have hread : (Call.perform (.events (.get eventId)) i w₁).1 = some event := hstored
  rw [hread]
  trivial

/-- The games of a list are stored. -/
def AllStored (found : List Event) (w : World) : Prop :=
  ∀ event ∈ found, (w.events.get event.eventId).isSome

omit hmoves in
theorem AllStored.keeps {found : List Event} {w' : World} (h : AllStored found w)
    (hkeeps : Keeps w w') : AllStored found w' :=
  fun event hevent => hkeeps.stored _ (h event hevent)

/-- The games that a scan finds are stored. -/
theorem endures_scanPages (budget : Nat) (after : Option (Time × EventId)) :
    endures E AllStored (scanPages (fun page => return page) budget after) w := by
  induction budget generalizing after w with
  | zero => exact fun _ => nofun
  | succ budget ih =>
    refine endures_call fun w₁ _ i _ => endures_value fun page hpage => ?_
    have hstored : AllStored page w₁ := by
      intro event hevent
      have hlisted : w₁.events.listPage after false maxEventPageSize = .ok page := hpage
      exact Option.isSome_iff_exists.mpr ⟨event, Table.find?_key (mem_of_listPage hlisted hevent)⟩
    refine endures_seq (R := fun seen w => AllStored seen w) hstored fun seen w₂ hseen => ?_
    split
    · exact hseen
    · split
      · exact hseen
      · next last _ _ =>
        have hscan : quiet (fun _ => True) (scanPages (fun page => return page) budget
            (some (last.createdAt, last.eventId))) := by
          refine makes_any (makes_scanPages (R := fun _ => True) (fun _ => trivial) ?_ budget _)
          intro page _
          exact fun _ _ => trivial
        have hfound := ih (w := w₂) (some (last.createdAt, last.eventId))
        have hkeeps := endures_quiet (keeps_moves hmoves) hscan (endures_mono hfound fun _ _ _ => trivial)
        refine endures_seq (endures_and hfound hkeeps) fun rest w₃ ⟨hrest, hlater, _⟩ => ?_
        intro event hevent
        rcases List.mem_append.mp hevent with h | h
        · exact hseen.keeps hlater event h
        · exact hrest event h

omit hmoves in
theorem endures_eventPassProfiles {event : Event} :
    endures E (fun _ _ => True) (eventPassProfiles bot event none) w :=
  endures_call fun _ _ _ _ => endures_call fun _ _ _ _ => endures_call fun _ _ _ _ => trivial

/-- The migrations of several games. -/
theorem endures_ensureAllMigrated {found : List Event} (hfound : AllStored found w) :
    endures E (fun _ _ => True) (Prog.traverse (ensureMigrated bot) found) w := by
  refine endures_mono (endures_traverse (AllStored found) hfound ?_) fun _ _ _ => trivial
  intro event hevent w hstored
  exact endures_mono (endures_ensureMigrated bot hmoves (hstored event hevent)) fun _ _ h =>
    hstored.keeps h.1.toKeeps

theorem endures_dailyPassProfiles {gameDate : GameDate} :
    endures E (fun _ _ => True) (dailyPassProfiles bot gameDate) w := by
  refine endures_seq (endures_scanPages hmoves _ _) fun found w₁ hfound => ?_
  dsimp only
  split
  · trivial
  · have hdated : AllStored (found.filter (·.gameDate = some gameDate)) w₁ :=
      fun event hevent => hfound event (List.mem_filter.mp hevent).1
    refine endures_then (endures_ensureAllMigrated bot hmoves hdated) fun _ _ => ?_
    refine endures_then (endures_reads fun event _ => ?_) fun _ _ => ?_
    · exact endures_one (c := .registrations (.listForEvent event.eventId))
    refine endures_then (endures_reads fun event _ => ?_) fun _ _ => ?_
    · exact endures_one (c := .listLeaders event.eventId)
    refine endures_call fun _ _ _ _ => ?_
    refine endures_then (endures_reads fun user _ => ?_) fun _ _ => trivial
    exact endures_one (c := .users (.findLinked user))

theorem endures_refreshDailyPassTable {gameDate : Option GameDate} :
    endures E (fun _ _ => True) (refreshDailyPassTable bot gameDate) w := by
  cases gameDate with
  | none => trivial
  | some gameDate =>
    refine endures_call fun _ _ _ _ => endures_present fun exists_ _ => ?_
    unfold whenever
    split
    · refine endures_then (endures_dailyPassProfiles bot hmoves) fun _ _ => ?_
      exact endures_asked "replace_pass_table" _
    · trivial

/-! ## The tables of the game -/

theorem endures_ensureEventTables {event : Event} (hevent : (w.events.get event.eventId).isSome) :
    endures E (fun event' w' => Keeps w w' ∧ event'.eventId = event.eventId)
      (ensureEventTables bot event) w := by
  refine endures_seq (endures_ensureMigrated bot hmoves hevent) fun event₁ w₁ ⟨hleaves₁, hid₁⟩ => ?_
  have hkeeps₁ := hleaves₁.toKeeps
  have hstored₁ : (w₁.events.get event₁.eventId).isSome := hid₁ ▸ hkeeps₁.stored _ hevent
  refine endures_seq (R := fun event₂ w₂ => Keeps w w₂ ∧ event₂.eventId = event.eventId) ?_
    fun event₂ w₂ ⟨hkeeps₂, hid₂⟩ => ?_
  · split
    · exact ⟨hkeeps₁, hid₁⟩
    · refine endures_call fun w' h' i _ => ?_
      have hkeeps' := hkeeps₁.trans (hmoves _ _ h').toKeeps
      have hstored' : (w'.events.get event₁.eventId).isSome := hid₁ ▸ hkeeps'.stored _ hevent
      have htable (rows : List Registration) := endures_maintenance hmoves
        (maintenance_ensurePublicTable bot event₁ rows)
        (endures_ensurePublicTable bot (keeps_moves hmoves) hstored')
      exact endures_mono (htable _) fun _ _ h => ⟨hkeeps'.trans h.1.toKeeps, h.2.id.trans hid₁⟩
  · split
    · exact ⟨hkeeps₂, hid₂⟩
    · have hstored₂ : (w₂.events.get event₂.eventId).isSome := hid₂ ▸ hkeeps₂.stored _ hevent
      have hrefresh := endures_maintenance hmoves (maintenance_refresh bot event₂)
        (endures_refresh bot (keeps_moves hmoves) hstored₂)
      exact endures_mono hrefresh fun _ _ h => ⟨hkeeps₂.trans h.1.toKeeps, h.2.id.trans hid₂⟩

theorem endures_refreshStoredPassTable {eventId : EventId} (hevent : (w.events.get eventId).isSome) :
    endures E (fun _ _ => True) (refreshStoredPassTable bot eventId) w := by
  refine endures_seq (endures_storedEvent hmoves hevent) fun event w₁ ⟨hkeeps, hid⟩ => ?_
  refine endures_then (R := fun _ _ => True) ?_ fun _ _ => endures_refreshDailyPassTable bot hmoves
  split
  · trivial
  · have hstored : (w₁.events.get event.eventId).isSome := hid ▸ hkeeps.stored _ hevent
    refine endures_then (endures_ensureMigrated bot hmoves hstored) fun _ _ => ?_
    refine endures_then (endures_eventPassProfiles bot) fun _ _ => ?_
    exact endures_asked "replace_pass_table" _

/-- A pass table is attached to a stored game that has none. -/
theorem endures_createPassTable (hevent : (w.events.get eventId).isSome) :
    endures E (fun _ _ => True) (createPassTable bot eventId) w := by
  refine endures_call fun w₁ h₁ i _ => ?_
  obtain ⟨event, hstored⟩ := Option.isSome_iff_exists.mp ((hmoves _ _ h₁).stored _ hevent)
  have hread : (Call.perform (.events (.get eventId)) i w₁).1 = some event := hstored
  rw [hread]
  obtain rfl := Events.eventId_of_get hstored
  have hsome : (w₁.events.get event.eventId).isSome := by rw [hstored]; rfl
  show endures E _ (if event.passTableResourcePath.isSome then _ else _) _
  split
  · exact endures_refreshStoredPassTable bot hmoves hsome
  · next hnone =>
    refine endures_seq (endures_ensureMigrated bot hmoves hsome) fun _ w₂ ⟨hleaves₂, _⟩ => ?_
    have hprofiles := endures_maintenance hmoves
      (maintenance_of_reads (reads_eventPassProfiles bot event none))
      (endures_eventPassProfiles (w := w₂) (E := E) bot)
    refine endures_seq hprofiles fun profiles w₃ ⟨hleaves₃, _⟩ => ?_
    refine endures_call fun w₄ h₄ i _ => endures_present fun created _ => ?_
    cases created with
    | none => trivial
    | some _ =>
      refine endures_call fun w₅ h₅ i _ => ?_
      have hleaves := ((hleaves₂.trans hleaves₃).trans (hmoves _ _ h₄)).trans (hmoves _ _ h₅)
      obtain ⟨now, hnow⟩ := Option.isSome_iff_exists.mp (hleaves.stored _ hsome)
      have hbare : now.passTableResourcePath.isNone := by
        cases hpath : now.passTableResourcePath with
        | none => rfl
        | some path =>
          obtain ⟨before, hbefore, hattached⟩ := hleaves.passTable
            ⟨now, hnow, Option.isSome_iff_exists.mpr ⟨path, hpath⟩⟩
          have hsame : w₁.events.get event.eventId = some before := hbefore
          rw [hstored] at hsame
          exact absurd (Option.some.inj hsame ▸ hattached) hnone
      have hset : (Call.perform (.events (.setPassTable event.eventId
          s!"disk:/larp-bot/passes/{event.eventId}.xlsx")) i w₅).1 = true := by
        show (Events.setPassTable _ _ _ _).1 = true
        rw [Events.setPassTable, Events.when_of_get hnow hbare]
      rw [hset]
      trivial

theorem endures_refreshEventTables (hevent : (w.events.get eventId).isSome) :
    endures E (fun _ _ => True) (refreshEventTables bot eventId) w := by
  refine endures_seq (endures_storedEvent hmoves hevent) fun event w₁ ⟨hkeeps₁, hid₁⟩ => ?_
  have hstored₁ : (w₁.events.get event.eventId).isSome := hid₁ ▸ hkeeps₁.stored _ hevent
  refine endures_seq (endures_ensureEventTables bot hmoves hstored₁) fun event₂ w₂ ⟨hkeeps₂, hid₂⟩ => ?_
  obtain rfl : event₂.eventId = eventId := hid₂.trans hid₁
  have hstored₂ := (hkeeps₁.trans hkeeps₂).stored _ hevent
  have hcreate := endures_quiet (keeps_moves hmoves) (quiet_createPassTable bot event₂.eventId)
    (endures_createPassTable bot hmoves hstored₂)
  refine endures_seq hcreate fun _ w₃ ⟨hkeeps₃, _⟩ => ?_
  exact endures_mono (endures_storedEvent hmoves (hkeeps₃.stored _ hstored₂)) fun _ _ _ => trivial

/-! ## Statistics -/

theorem endures_group {p : Act α} {Q : α → Prop} (hp : quiet Q p) :
    endures E (fun a w' => Keeps w w' ∧ Q a) (inTaskGroup p) w :=
  endures_inTaskGroup (wp_mono (keeps_quiet (keeps_moves hmoves) hp) (fun _ _ h => h) fun _ _ _ => trivial)

omit hmoves in
theorem endures_projectProfile {event : Event} {operationId : OperationId} {user : User} :
    endures E (fun _ _ => True) (projectProfile bot event operationId user) w := by
  unfold projectProfile
  split
  · trivial
  · split
    · trivial
    · refine endures_call fun _ _ _ _ => ?_
      split
      · trivial
      · exact endures_call fun _ _ _ _ => trivial

theorem endures_projectProfilesForEvent {users : List User} {operationId : OperationId}
    (hevent : (w.events.get eventId).isSome) :
    endures E (fun _ _ => True) (projectProfilesForEvent bot eventId users operationId) w := by
  refine endures_seq (endures_storedEvent hmoves hevent) fun event w₁ ⟨hkeeps₁, hid⟩ => ?_
  have hstored : (w₁.events.get event.eventId).isSome := hid ▸ hkeeps₁.stored _ hevent
  refine endures_then (endures_ensureMigrated bot hmoves hstored) fun _ _ => ?_
  exact endures_then (endures_reads fun _ _ => endures_projectProfile bot) fun _ _ => trivial

theorem endures_grantExperience {keys : List ParticipantKey} {operationId : OperationId}
    (hevent : (w.events.get eventId).isSome) :
    endures E (fun _ _ => True) (grantExperience bot eventId keys operationId) w := by
  refine endures_call fun w₁ h₁ i _ => ?_
  have hstored := (hmoves _ _ h₁).stored _ hevent
  refine endures_seq (endures_group hmoves (Makes.forEach (R := fun _ => True) fun user _ => ?_))
    fun _ w₂ ⟨hkeeps₂, _⟩ => ?_
  · refine makes_call trivial fun _ _ => ?_
    exact (quiet_enqueueProfileUpdates bot _ _ _ _).bind fun _ _ => trivial
  -- the game stays stored to the end of the projections
  refine endures_seq (endures_traverse (fun w => (w.events.get eventId).isSome)
    (hkeeps₂.stored _ hstored) ?_) fun refreshed w₃ hstored₃ => ?_
  · exact fun user _ w hw w' hw' i _ => ⟨trivial, (hmoves _ _ hw').stored _ hw⟩
  have hproject := endures_quiet (keeps_moves hmoves) (quiet_projectProfilesForEvent bot eventId
    (refreshed.filterMap id) s!"{operationId}:statistics-experience")
    (endures_projectProfilesForEvent bot hmoves hstored₃)
  refine endures_seq hproject fun projected w₄ ⟨hkeeps₄, _⟩ => ?_
  unfold whenever
  split
  · exact endures_then (endures_refreshEventTables bot hmoves (hkeeps₄.stored _ hstored₃))
      fun _ _ => trivial
  · trivial

end Tables

/-! ## Entering a game -/

section Entering

/-- One of the profiles of a person is a master of the game. -/
def IsMaster (w : World) (eventId : EventId) (user : User) : Prop :=
  ∃ identity ∈ user.identity :: (w.users.findLinked user).toList.map User.identity,
    identity ∈ w.leaders.listLeaders eventId

/-- The statistics take the game as it is stored: every master has a profile, and the names of the
masters, of the confirmed players and of those who play in the chat are names. -/
structure Enterable (plays : Nat → Prop) (eventId : EventId) (w : World) : Prop where
  players : ∀ row ∈ confirmedRows (w.registrations.listForEvent eventId),
    isStatisticsName (surnameAndName row.displayName)
  masters : ∃ masters, masterNames w.users.listAll (w.leaders.listLeaders eventId) = some masters ∧
    ∀ name ∈ masters, isStatisticsName name
  inChat : ∀ user : TelegramUser, .telegram user ∈ w.users.listAll → plays user.tgId →
    IsMaster w eventId (.telegram user) ∨
      ∃ fullName, user.fullName = some fullName ∧ isStatisticsName (surnameAndName fullName)

/-- The workbooks raise no domain error, and those whom the messenger calls players are among
`plays`. -/
structure Receptive (plays : Nat → Prop) (i : Input) : Prop where
  inChat : ∀ chatId userId requestId member, i (.getChatMember chatId userId requestId) = some (some member) →
    member.isPlayer → plays userId
  prepares : ∀ book season game names error,
    i (.prepareStatistics book season game names) ≠ .error (.domain error)
  commits : ∀ book changed error, i (.commitStatistics book changed) ≠ .error (.domain error)

variable {E : Surround World Input} {eventId : EventId} {plays : Nat → Prop} {α β : Type} {w : World}
  (bot : Deployment) (hmoves : ∀ w w', E.moves w w' → Leaves eventId w w' ∧ Enterable plays eventId w')
  (hadmits : ∀ i, E.admits i → Receptive plays i)

theorem Leaves.isMaster {w' : World} {user : User} (h : Leaves eventId w w')
    (hmaster : IsMaster w eventId user) : IsMaster w' eventId user := by
  have hlinked : (w'.users.findLinked user).toList.map User.identity =
      (w.users.findLinked user).toList.map User.identity := by
    rw [← Option.toList_map, ← Option.toList_map, h.linked]
  obtain ⟨identity, hmem, hleads⟩ := hmaster
  exact ⟨identity, hlinked ▸ hmem, h.leaders ▸ hleads⟩

theorem endures_rejectIf {c : Bool} {text : String} {f : Unit → Act β} {Q : β → World → Prop}
    (hc : c = false) (hf : endures E Q (f ()) w) : endures E Q (rejectIf c text >>= f) w := by
  rw [hc]
  exact hf

theorem endures_validateNames {names : List String} {role : String} {f : Unit → Act β}
    {Q : β → World → Prop} (hnames : ∀ name ∈ names, isStatisticsName name)
    (hf : endures E Q (f ()) w) : endures E Q (validateNames names role >>= f) w := by
  refine endures_rejectIf ?_ hf
  have hnone : names.filter (!isStatisticsName ·) = [] := by
    rw [List.filter_eq_nil_iff]
    exact fun name hname => by simp [hnames name hname]
  rw [hnone]
  rfl

include hmoves hadmits

/-- A player of the chat has a name that the statistics take. -/
theorem endures_inspectMember {chatId : Int} {operationId : OperationId} {user : TelegramUser}
    (hname : plays user.tgId → IsMaster w eventId (.telegram user) ∨
      ∃ fullName, user.fullName = some fullName ∧ isStatisticsName (surnameAndName fullName)) :
    endures E (fun result w' => Leaves eventId w w' ∧ result.2 = none ∧
        ∀ name ∈ result.1, isStatisticsName name)
      (inspectMember chatId (w.leaders.listLeaders eventId) operationId user) w := by
  refine endures_call fun w₁ h₁ i hi => endures_present fun member hmember => ?_
  have hleaves₁ := (hmoves _ _ h₁).1
  split
  · exact ⟨hleaves₁, rfl, nofun⟩
  · next hplayer =>
    have hplays : plays user.tgId := by
      cases member with
      | none => exact absurd rfl hplayer
      | some member =>
        have hasked : i (.getChatMember chatId user.tgId
          s!"{operationId}:statistics-chat-member:{user.tgId}") = some (some member) := hmember
        exact (hadmits i hi).inChat _ _ _ member hasked (by simpa using hplayer)
    refine endures_call fun w₂ h₂ i _ => ?_
    have hleaves₂ : Leaves eventId w w₂ := hleaves₁.trans (hmoves _ _ h₂).1
    show endures E _ (if _ then _ else _) w₂
    split
    · exact ⟨hleaves₂, rfl, nofun⟩
    · next hother =>
      rcases hname hplays with hmaster | ⟨fullName, hfullName, hgood⟩
      · obtain ⟨identity, hmem, hleads⟩ := hleaves₂.isMaster hmaster
        rw [hleaves₂.leaders] at hleads
        refine absurd (List.any_eq_true.mpr ⟨identity, ?_, decide_eq_true hleads⟩) hother
        exact hmem
      · rw [hfullName]
        exact ⟨hleaves₂, rfl, by rintro name ⟨⟩; exact hgood⟩

/-- The profile, if it is a Telegram one. -/
def telegramOf : User → Option TelegramUser
  | .telegram user => some user
  | .vk _ => none

/-- The players of the chat. -/
theorem endures_manualTelegramPlayers {chatId : Int} {operationId : OperationId}
    {profiles : List User} (hnames : ∀ user : TelegramUser, .telegram user ∈ profiles →
      plays user.tgId → IsMaster w eventId (.telegram user) ∨
        ∃ fullName, user.fullName = some fullName ∧ isStatisticsName (surnameAndName fullName)) :
    endures E (fun players w' => Leaves eventId w w' ∧ ∀ name ∈ players, isStatisticsName name)
      (manualTelegramPlayers chatId (w.leaders.listLeaders eventId) profiles operationId) w := by
  have hinspect : endures E (fun results w' => Leaves eventId w w' ∧ ∀ result ∈ results,
      result.2 = none ∧ ∀ name ∈ result.1, isStatisticsName name)
      (Prog.traverse (inspectMember chatId (w.leaders.listLeaders eventId) operationId)
        (sortBy TelegramUser.tgId (profiles.filterMap telegramOf))) w := by
    refine endures_traverse_all (Leaves eventId w) _ (Leaves.refl w) fun user huser w' hleaves => ?_
    obtain ⟨profile, hprofile, hsame⟩ := List.mem_filterMap.mp (mem_sortBy.mp huser)
    have hlisted : .telegram user ∈ profiles := by
      cases profile with
      | vk _ =>
        rw [telegramOf] at hsame
        cases hsame
      | telegram _ => exact Option.some.inj hsame ▸ hprofile
    rw [← hleaves.leaders]
    refine endures_mono (endures_inspectMember hmoves hadmits fun hplays => ?_) fun _ _ h =>
      ⟨hleaves.trans h.1, h.2⟩
    exact (hnames user hlisted hplays).imp_left hleaves.isMaster
  refine endures_seq (endures_inTaskGroup (wp_mono hinspect (fun _ _ h => h) fun _ _ _ => trivial))
    ?_
  rintro results w' ⟨hleaves, hresults⟩
  have hcomplete : results.filterMap Prod.snd = [] :=
    List.filterMap_eq_nil_iff.mpr fun result hresult => (hresults result hresult).1
  refine endures_rejectIf (by rw [hcomplete]; rfl) ⟨hleaves, fun name hname => ?_⟩
  obtain ⟨result, hresult, hsome⟩ := List.mem_filterMap.mp hname
  exact (hresults result hresult).2 name hsome

theorem endures_attendance {event : Event} {operationId : OperationId} {rows : List Registration}
    {profiles : List User} {masters : List String}
    (hrows : ∀ row ∈ confirmedRows rows, isStatisticsName (surnameAndName row.displayName))
    (hmasters : masterNames profiles (w.leaders.listLeaders eventId) = some masters)
    (hmasterNames : ∀ name ∈ masters, isStatisticsName name)
    (hnames : ∀ user : TelegramUser, .telegram user ∈ profiles →
      plays user.tgId → IsMaster w eventId (.telegram user) ∨
        ∃ fullName, user.fullName = some fullName ∧ isStatisticsName (surnameAndName fullName)) :
    endures E (fun _ w' => Leaves eventId w w')
      (attendance event operationId rows (w.leaders.listLeaders eventId) profiles) w := by
  refine endures_seq (R := fun players w' => Leaves eventId w w' ∧
    ∀ name ∈ players, isStatisticsName name) ?_ fun inChat w' ⟨hleaves, hinChat⟩ => ?_
  · split
    · exact ⟨Leaves.refl w, fun name hname => absurd hname List.not_mem_nil⟩
    · exact endures_manualTelegramPlayers hmoves hadmits hnames
  · rw [hmasters]
    refine endures_validateNames (fun name hname => ?_) (endures_validateNames hmasterNames hleaves)
    rcases List.mem_append.mp hname with hsigned | hchat
    · obtain ⟨row, hrow, rfl⟩ := List.mem_map.mp hsigned
      exact hrows row hrow
    · exact hinChat name hchat

omit hmoves hadmits in
theorem endures_answered {answer : Except Failure α} {f : α → Act β} {Q : β → World → Prop}
    (hanswer : ∀ error, answer ≠ .error (.domain error)) (hf : ∀ a, endures E Q (f a) w) :
    endures E Q (answered answer >>= f) w := by
  cases answer with
  | ok a => exact hf a
  | error failure =>
    intro error hfailure
    exact hanswer error (congrArg Except.error hfailure)

omit hmoves hadmits in
/-- A question to the outside takes no game away. -/
theorem endures_asks (hleaves : ∀ w w', E.moves w w' → Leaves eventId w w')
    (hevent : (w.events.get eventId).isSome) {c : OutsideCall} {f : c.Ans → Act β}
    {Q : β → World → Prop} (hf : ∀ i, E.admits i → ∀ w', (w'.events.get eventId).isSome →
      endures E Q (f (i c)) w') : endures E Q (outside c >>= f) w := by
  refine endures_call fun w' hw' i hi => hf i hi _ ?_
  rw [Call.perform, c.events_record]
  exact (hleaves _ _ hw').stored _ hevent

/-- A stored game that is not archived is entered in the statistics. -/
theorem endures_addGame {operationId : OperationId} (hevent : (w.events.get eventId).isSome)
    (hopen : ¬ w.events.Has eventId (·.archivedAt.isSome)) :
    endures E (fun _ _ => True) (addGame bot eventId operationId) w := by
  have hleaves (w w' : World) (h : E.moves w w') : Leaves eventId w w' := (hmoves w w' h).1
  refine endures_call fun w₁ h₁ i _ => ?_
  obtain ⟨event, hstored⟩ := Option.isSome_iff_exists.mp ((hleaves _ _ h₁).stored _ hevent)
  have hread : (Call.perform (.events (.get eventId)) i w₁).1 = some event := hstored
  rw [hread]
  obtain rfl := Events.eventId_of_get hstored
  have hsome : (w₁.events.get event.eventId).isSome := by rw [hstored]; rfl
  have hunarchived : event.archivedAt.isSome = false :=
    Bool.eq_false_iff.mpr fun harchived => hopen ((hleaves _ _ h₁).archived ⟨event, hstored, harchived⟩)
  refine endures_rejectIf hunarchived ?_
  refine endures_seq (endures_ensureMigrated bot hleaves hsome) fun _ w₂ ⟨hleaves₂, _⟩ => ?_
  refine endures_call fun w₃ h₃ i₃ _ => ?_
  refine endures_call fun w₄ h₄ i₄ _ => ?_
  refine endures_call fun w₅ h₅ i₅ _ => ?_
  have hrows := (hmoves _ _ h₃).2.players
  obtain ⟨masters, hmasters, hmasterNames⟩ := (hmoves _ _ h₅).2.masters
  have hleaders : w₄.leaders.listLeaders event.eventId = w₅.leaders.listLeaders event.eventId :=
    (hleaves _ _ h₅).leaders.symm
  show endures E _ ((attendance event operationId (w₃.registrations.listForEvent event.eventId)
    (w₄.leaders.listLeaders event.eventId) w₅.users.listAll).bind _) w₅
  rw [hleaders]
  refine endures_seq (endures_attendance hmoves hadmits hrows hmasters hmasterNames
    (hmoves _ _ h₅).2.inChat) fun names w₆ hleaves₆ => ?_
  have hstored₆ : (w₆.events.get event.eventId).isSome :=
    (((hleaves₂.trans (hleaves _ _ h₃)).trans (hleaves _ _ h₄)).trans
      ((hleaves _ _ h₅).trans hleaves₆)).stored _ hsome
  -- the two workbooks are staged and then uploaded
  refine endures_asks hleaves hstored₆ fun i _ w₇ hstored₇ => ?_
  refine endures_asks hleaves hstored₇ fun i hi w₈ hstored₈ => ?_
  refine endures_answered ((hadmits i hi).prepares _ _ _ _) fun playerEdit => ?_
  refine endures_asks hleaves hstored₈ fun i hi w₉ hstored₉ => ?_
  refine endures_answered ((hadmits i hi).prepares _ _ _ _) fun masterEdit => ?_
  refine endures_asks hleaves hstored₉ fun i hi w₁₀ hstored₁₀ => ?_
  refine endures_answered ((hadmits i hi).commits _ _) fun playerChanged => ?_
  refine endures_asks hleaves hstored₁₀ fun i hi w₁₁ hstored₁₁ => ?_
  refine endures_answered ((hadmits i hi).commits _ _) fun masterChanged => ?_
  refine endures_then (endures_grantExperience bot hleaves hstored₁₁) fun _ w₁₂ => ?_
  dsimp only
  split <;> trivial

end Entering

end LarpBot
