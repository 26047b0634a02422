import LarpBot.Laws.LeaderRows

/-!
# Leaders without an event

A transaction is guarded by the items that it writes. The one that adds a leader writes the row of
the leader and only reads the event; the one that deletes an event deletes the leaders that it has
read. Either may be overtaken by the other, and a leader is left without its event. Where neither is,
every leader row belongs to an event (`no_orphan_leaders`).
-/

namespace LarpBot

open Atomic

/-! ## What the methods do to the memory repository -/

/-- A call that deletes no event neither adds nor removes one. -/
theorem EventCall.isSome_perform {c : EventCall} {now : Time} {t : Events} (e : EventId)
    (hc : ∀ e, c ≠ .delete e) : (Events.get (c.perform now t).2 e).isSome = (t.get e).isSome := by
  cases c with
  | get | getBySignupToken | listPage => rfl
  | delete e' => exact absurd rfl (hc e')
  | startScheduledClose e' op =>
    simp only [perform, Events.startScheduledClose]
    split
    · rfl
    · split
      · rfl
      · split
        · rfl
        · rw [Events.isSome_get_modify]
  | completeScheduledCloseActions e' op =>
    simp only [perform, Events.completeScheduledCloseActions]
    split
    · rfl
    · split
      · rfl
      · split
        · rfl
        · rw [Events.isSome_get_modify]
  | setStatus | setPlayerAmount | setGoogleTableLinks | openConfirmation =>
    exact Events.isSome_get_always
  | openScheduledConfirmation | setDetails | setPublicTable | archive | unarchive
  | appendConfirmedNotification | setPassTable => exact Events.isSome_get_when
  | _ => exact Events.isSome_get_existing

namespace EventMethod

/-- What a method may do to the events and the leaders that there are. -/
inductive Effect (m : EventMethod) (memory memory' : EventMemory) : Prop
  | rewrite (hleaders : memory'.leaders = memory.leaders)
      (hrows : ∀ e, (memory'.rows.get e).isSome = (memory.rows.get e).isSome)
  | delete (e : EventId) (hm : m = .of (.delete e))
      (h : memory' = ⟨memory.rows.erase e, memory.leaders.ofEventRemoved e⟩)
  | create (event : Event) (leaders : List BotIdentity) (hm : m = .create event leaders)
      (hnew : memory.rows.get event.eventId = none)
      (h : memory' = ⟨memory.rows.insertNew event,
        leaders.foldl (fun stored leader => stored.insertNew (event.eventId, leader))
          (memory.leaders.ofEventRemoved event.eventId)⟩)
  | addLeader (e : EventId) (leader : BotIdentity) (hm : m = .addLeader e leader)
      (hevent : (memory.rows.get e).isSome)
      (h : memory' = ⟨memory.rows, memory.leaders.insertNew (e, leader)⟩)
  | removeLeader (e : EventId) (leader : BotIdentity) (hm : m = .removeLeader e leader)
      (h : memory' = ⟨memory.rows, memory.leaders.erase (e, leader)⟩)

variable {m : EventMethod} {now : Time} {memory memory' : EventMemory} {answer : m.Ans}

/-- A call that is raised or leaves what it performs. -/
theorem memory_of_performed {c : EventCall} {answer : c.Ans}
    (hrun : (match c.raised (c.perform now memory.rows).1 with
      | some fault => .error fault
      | none => .ok ((c.perform now memory.rows).1,
          ⟨(c.perform now memory.rows).2, c.leadersAfter memory.leaders⟩) :
        Except Fault (c.Ans × EventMemory)) = .ok (answer, memory')) :
    memory' = ⟨(c.perform now memory.rows).2, c.leadersAfter memory.leaders⟩ := by
  split at hrun
  · cases hrun
  · exact (Prod.mk.inj (Except.ok.inj hrun)).2.symm

/-- A call, as the memory repository runs it. -/
theorem run_of {c : EventCall} {answer : c.Ans}
    (hrun : run now memory (.of c) = .ok (answer, memory')) :
    (∃ e status, c = .setStatus e status ∧ memory' = (memory.setStatus now e status).2) ∨
      memory' = ⟨(c.perform now memory.rows).2, c.leadersAfter memory.leaders⟩ := by
  cases c with
  | setStatus e status =>
    exact .inl ⟨e, status, rfl, by rw [(Prod.mk.inj (Except.ok.inj hrun)).2.symm]; rfl⟩
  | _ => exact .inr (memory_of_performed hrun)

theorem effect_setStatus (e : EventId) (status : EventStatus) :
    Effect m memory (memory.setStatus now e status).2 := by
  unfold EventMemory.setStatus
  dsimp only
  split
  · refine .rewrite rfl fun e' => ?_
    exact Events.isSome_get_when.trans Events.isSome_get_always
  · exact .rewrite rfl fun e' => Events.isSome_get_always

theorem create_of_run {event : Event} {leaders : List BotIdentity} (hm : m = .create event leaders)
    (hrun : m.run now memory = .ok (answer, memory')) : memory.create event leaders = .ok memory' := by
  subst hm
  rw [run] at hrun
  cases hcreated : memory.create event leaders with
  | error fault => rw [hcreated] at hrun; cases hrun
  | ok created =>
    rw [hcreated] at hrun
    rw [(Prod.mk.inj (Except.ok.inj hrun)).2]

theorem effect_run (hrun : m.run now memory = .ok (answer, memory')) :
    Effect m memory memory' := by
  cases m with
  | of c =>
    rcases run_of hrun with ⟨e, status, rfl, rfl⟩ | rfl
    · exact effect_setStatus e status
    · by_cases hc : ∃ e, c = .delete e
      · obtain ⟨e, rfl⟩ := hc
        exact .delete e rfl rfl
      · have hother : ∀ e, c ≠ .delete e := fun e h => hc ⟨e, h⟩
        refine .rewrite ?_ fun e => EventCall.isSome_perform e hother
        cases c with
        | delete e => exact absurd rfl (hother e)
        | _ => rfl
  | getByTelegramChatId chatId =>
    have hsame : memory' = memory := run_of_isRead (m := .getByTelegramChatId chatId) trivial hrun
    rw [hsame]
    exact .rewrite rfl fun _ => rfl
  | listLeaders e =>
    have hsame : memory' = memory := run_of_isRead (m := .listLeaders e) trivial hrun
    rw [hsame]
    exact .rewrite rfl fun _ => rfl
  | create event leaders =>
    simp only [run, EventMemory.create] at hrun
    split at hrun
    · cases hrun
    · next hnew =>
      refine .create event leaders rfl (by simpa using hnew) ?_
      exact (Prod.mk.inj (Except.ok.inj hrun)).2.symm
  | addLeader e leader =>
    have hmemory : (memory.addLeader e leader).2 = memory' :=
      congrArg Prod.snd (Except.ok.inj hrun)
    unfold EventMemory.addLeader at hmemory
    split at hmemory
    · rw [← hmemory]
      exact .rewrite rfl fun _ => rfl
    · next hevent =>
      split at hmemory
      · rw [← hmemory]
        exact .rewrite rfl fun _ => rfl
      · refine .addLeader e leader rfl ?_ hmemory.symm
        exact Option.isSome_iff_ne_none.mpr fun hnone => hevent (by rw [hnone]; rfl)
  | removeLeader e leader =>
    have hmemory : (memory.removeLeader e leader).2 = memory' :=
      congrArg Prod.snd (Except.ok.inj hrun)
    unfold EventMemory.removeLeader at hmemory
    split at hmemory
    · exact .removeLeader e leader rfl hmemory.symm
    · rw [← hmemory]
      exact .rewrite rfl fun _ => rfl

namespace Effect

variable {e : EventId} {identity : BotIdentity}

/-- Only the deletion of an event takes it away. -/
theorem event_stays (h : Effect m memory memory') (hevent : (memory.rows.get e).isSome) :
    (memory'.rows.get e).isSome ∨ m = .of (.delete e) := by
  cases h with
  | rewrite _ hrows => exact .inl ((hrows e).trans hevent)
  | delete e' hm h =>
    by_cases he : e = e'
    · exact .inr (he ▸ hm)
    · left
      subst h
      show ((memory.rows.erase e').find? e).isSome
      rw [Table.find?_erase, if_neg he]
      exact hevent
  | create event leaders hm hnew h =>
    left
    subst h
    obtain ⟨stored, hstored⟩ := Option.isSome_iff_exists.mp hevent
    rw [Events.get, Table.find?_extends (Table.prefix_insertNew memory.rows event) hstored]
    rfl
  | addLeader _ _ _ _ h => exact .inl (by rw [h]; exact hevent)
  | removeLeader _ _ _ h => exact .inl (by rw [h]; exact hevent)

/-- A leader is new only in a creation of its event or where it is added. -/
theorem leader_cases (h : Effect m memory memory') (hleader : (e, identity) ∈ memory'.leaders.rows) :
    (e, identity) ∈ memory.leaders.rows ∨ m = .addLeader e identity ∨
      ∃ event leaders, m = .create event leaders ∧ event.eventId = e ∧ identity ∈ leaders ∧
        memory.rows.get e = none ∧ (memory'.rows.get e).isSome := by
  cases h with
  | rewrite hleaders => exact .inl (hleaders ▸ hleader)
  | delete e' hm h =>
    subst h
    exact .inl (List.mem_filter.mp hleader).1
  | create event leaders hm hnew h =>
    subst h
    rw [← List.foldl_map] at hleader
    rcases Table.mem_foldl_insertNew hleader with hold | ⟨hgiven, -⟩
    · exact .inl (List.mem_filter.mp hold).1
    · obtain ⟨leader, hmem, hsame⟩ := List.mem_map.mp hgiven
      obtain ⟨rfl, rfl⟩ := Prod.mk.inj hsame
      refine .inr (.inr ⟨event, leaders, hm, rfl, hmem, hnew, ?_⟩)
      rw [Events.get, Table.find?_insertNew, if_pos rfl]
      rfl
  | addLeader e' leader hm hevent h =>
    subst h
    rcases Table.mem_insertNew hleader with hold | ⟨hsame, -⟩
    · exact .inl hold
    · obtain ⟨rfl, rfl⟩ := Prod.mk.inj hsame
      exact .inr (.inl hm)
  | removeLeader e' leader hm h =>
    subst h
    exact .inl (List.mem_filter.mp hleader).1

end Effect

end EventMethod

/-! ## What a transaction leaves -/

section Transactions

variable {original s s' : EventItems} {memory : EventMemory} {now : Time} {e : EventId}
  {identity : BotIdentity}

theorem target_lockActions {desired : Table EventDocument.key}
    {a : Action EventDocument EventKey} (h : a ∈ EventItems.extraActions original desired) :
    ∃ kind value, a.target EventDocument.key = .lock kind value := by
  obtain ⟨eventId, -, ha⟩ := List.mem_flatMap.mp h
  rcases List.mem_append.mp ha with hunlock | hlock
  · obtain ⟨unique, -, rfl⟩ := List.mem_map.mp hunlock
    exact ⟨unique.1, unique.2, rfl⟩
  · obtain ⟨unique, -, rfl⟩ := List.mem_map.mp hlock
    exact ⟨unique.1, unique.2, rfl⟩

/-- What a committed transaction of the repository has done to an event or a leader. -/
theorem fate_of_committed (h : Committed (dynamoEvents.actions now original memory) s s')
    {k : EventKey} (hk : ∀ kind value, k ≠ .lock kind value) :
    Fate original (EventItems.desired now original memory) s s' k := by
  refine h.fate fun a ha htarget => ?_
  obtain ⟨kind, value, hlock⟩ := target_lockActions ha
  exact hk kind value (htarget.symm.trans hlock)

theorem isSome_desired_leader :
    ((EventItems.desired now original memory).find? (.leader e identity)).isSome ↔
      (e, identity) ∈ memory.leaders.rows ∧ (memory.rows.get e).isSome := by
  rw [EventItems.find?_desired_leader]
  split
  · next h => exact iff_of_true rfl h
  · next h => exact iff_of_false nofun h

/-- A leader that is wanted was not read, or is wanted as it was read. -/
theorem leader_unread
    (hdesired : ((EventItems.desired now original memory).find? (.leader e identity)).isSome)
    (hchanged : (original.find? (.leader e identity)).map Item.document ≠
      (EventItems.desired now original memory).find? (.leader e identity)) :
    original.find? (.leader e identity) = none := by
  rw [EventItems.find?_desired_leader, if_pos (isSome_desired_leader.mp hdesired)] at hchanged
  cases hfound : original.find? (.leader e identity) with
  | none => rfl
  | some item =>
    obtain ⟨createdAt, hdocument⟩ := EventItems.document_of_leader hfound
    obtain ⟨revision, document⟩ := item
    dsimp only at hdocument
    subst hdocument
    rw [hfound, EventItems.createdAt, hfound] at hchanged
    exact absurd rfl hchanged

theorem leader_after (h : Committed (dynamoEvents.actions now original memory) s s')
    (hafter : (s'.find? (.leader e identity)).isSome) :
    ((e, identity) ∈ memory.leaders.rows ∧ (memory.rows.get e).isSome ∧
      original.find? (.leader e identity) = none) ∨
    ((s.find? (.leader e identity)).isSome ∧ ((original.find? (.leader e identity)).isSome →
      (e, identity) ∈ memory.leaders.rows ∧ (memory.rows.get e).isSome)) := by
  cases fate_of_committed h (k := .leader e identity) nofun with
  | written document revision hdesired hchanged =>
    have hwanted := isSome_desired_leader.mp (Option.isSome_of_eq_some hdesired)
    refine .inl ⟨hwanted.1, hwanted.2, leader_unread (Option.isSome_of_eq_some hdesired) ?_⟩
    rw [hdesired]
    exact hchanged
  | deleted _ _ hnone =>
    rw [hnone] at hafter
    exact nomatch hafter
  | kept hsame hstored =>
    refine .inr ⟨hstored ▸ hafter, fun horiginal => ?_⟩
    rw [← Option.isSome_map (f := Item.document), ← hsame] at horiginal
    exact isSome_desired_leader.mp horiginal

/-- A leader that is wanted and was not read is put. -/
theorem leader_put (h : Committed (dynamoEvents.actions now original memory) s s')
    (hleader : (e, identity) ∈ memory.leaders.rows) (hevent : (memory.rows.get e).isSome)
    (hunread : original.find? (.leader e identity) = none) :
    (s'.find? (.leader e identity)).isSome := by
  have hwanted : ((EventItems.desired now original memory).find? (.leader e identity)).isSome :=
    isSome_desired_leader.mpr ⟨hleader, hevent⟩
  cases fate_of_committed h (k := .leader e identity) nofun with
  | written document revision _ _ _ hafter => rw [hafter]; rfl
  | deleted _ hdesired =>
    rw [hdesired] at hwanted
    exact nomatch hwanted
  | kept hsame =>
    rw [hsame, hunread] at hwanted
    exact nomatch hwanted

/-- An event that is wanted and was not read was not there, and is put. -/
theorem event_put (h : Committed (dynamoEvents.actions now original memory) s s')
    (hevent : (memory.rows.get e).isSome) (hunread : original.find? (.event e) = none) :
    s.find? (.event e) = none ∧ (s'.find? (.event e)).isSome := by
  have hwanted : ((EventItems.desired now original memory).find? (.event e)).isSome := by
    rw [EventItems.find?_desired_event, Option.isSome_map]
    exact hevent
  cases fate_of_committed h (k := .event e) nofun with
  | written document revision _ _ hbefore hafter => exact ⟨hbefore hunread, by rw [hafter]; rfl⟩
  | deleted _ hdesired =>
    rw [hdesired] at hwanted
    exact nomatch hwanted
  | kept hsame =>
    rw [hsame, hunread] at hwanted
    exact nomatch hwanted

/-- An event stays, unless it was read and is not wanted. -/
theorem event_kept (h : Committed (dynamoEvents.actions now original memory) s s')
    (hstored : (s.find? (.event e)).isSome)
    (hwanted : (original.find? (.event e)).isSome → (memory.rows.get e).isSome) :
    (s'.find? (.event e)).isSome := by
  cases fate_of_committed h (k := .event e) nofun with
  | written document revision _ _ _ hafter => rw [hafter]; rfl
  | deleted horiginal hdesired =>
    rw [EventItems.find?_desired_event, Option.map_eq_none_iff] at hdesired
    have hthere := hwanted horiginal
    rw [hdesired] at hthere
    exact nomatch hthere
  | kept _ hafter => rw [hafter]; exact hstored

end Transactions

/-- Every leader row belongs to an event. -/
def NoOrphans (tables : EventItems) : Prop :=
  ∀ e identity, (tables.find? (.leader e identity)).isSome → (tables.find? (.event e)).isSome

section Committed

variable {m : EventMethod} {original s s' : EventItems} {memory : EventMemory} {now : Time}
  {answer : m.Ans}

/-- A committed transaction leaves no leader without its event, if the one that adds a leader still
finds the event and the one that deletes an event has read the leaders that are there. -/
theorem noOrphans_committed (hrun : m.run now original.load = .ok (answer, memory))
    (h : Committed (dynamoEvents.actions now original memory) s s') (hs : NoOrphans s)
    (hadd : ∀ e leader, m = .addLeader e leader → (s.find? (.event e)).isSome)
    (hdelete : ∀ e, m = .of (.delete e) → ∀ stored read, original.find? (.event e) = some read →
      s.find? (.event e) = some stored → stored.revision = read.revision →
        ∀ identity, (s.find? (.leader e identity)).isSome →
          (original.find? (.leader e identity)).isSome) : NoOrphans s' := by
  intro e identity hafter
  have heffect : m.Effect original.load memory := EventMethod.effect_run hrun
  rcases leader_after h hafter with ⟨hleader, hevent, hunread⟩ | ⟨hstored, hread⟩
  · -- the leader is new
    rcases heffect.leader_cases hleader with hold | rfl | ⟨event, leaders, -, rfl, -, hnew, -⟩
    · rw [EventItems.mem_load_leader, hunread] at hold
      exact nomatch hold
    · exact event_kept h (hadd e identity rfl) fun _ => hevent
    · have hmissed : original.find? (.event event.eventId) = none := by
        rw [← Option.not_isSome_iff_eq_none, ← EventItems.isSome_get_load, hnew]
        exact nofun
      exact (event_put h hevent hmissed).2
  · refine event_kept h (hs e identity hstored) fun horiginal => ?_
    rcases heffect.event_stays (EventItems.isSome_get_load.trans horiginal) with hstays | hm
    · exact hstays
    · obtain ⟨read, hfound⟩ := Option.isSome_iff_exists.mp horiginal
      by_contra hgone
      have hdesired : (EventItems.desired now original memory).find? (.event e) = none := by
        rw [EventItems.find?_desired_event, Option.not_isSome_iff_eq_none.mp hgone, Option.map_none]
      obtain ⟨stored, hevent, hrevision⟩ := h.revision_of_deleted hfound hdesired
      exact hgone (hread (hdelete e hm stored read hfound hevent hrevision identity hstored)).2

/-- A created event has exactly the leaders that it is given. -/
theorem leaders_created {event : Event} {leaders : List BotIdentity} {memory : EventMemory}
    (hrun : original.load.create event leaders = .ok memory)
    (h : Committed (dynamoEvents.actions now original memory) s s') (hs : NoOrphans s)
    (hunread : ∀ identity, original.find? (.leader event.eventId identity) = none)
    (identity : BotIdentity) :
    (s'.find? (.leader event.eventId identity)).isSome ↔ identity ∈ leaders := by
  unfold EventMemory.create at hrun
  split at hrun
  · cases hrun
  · next hnew =>
    obtain rfl := Except.ok.inj hrun
    have hmissed : original.find? (.event event.eventId) = none := by
      rw [← Option.not_isSome_iff_eq_none, ← EventItems.isSome_get_load]
      exact hnew
    have hevent : (Events.get (original.load.rows.insertNew event) event.eventId).isSome := by
      rw [Events.get, Table.find?_insertNew, if_pos rfl]
      rfl
    constructor
    · intro hafter
      rcases leader_after h hafter with ⟨hleader, -, -⟩ | ⟨hstored, -⟩
      · dsimp only at hleader
        rw [← List.foldl_map] at hleader
        rcases Table.mem_foldl_insertNew hleader with hold | ⟨hgiven, -⟩
        · have hother := (List.mem_filter.mp hold).2
          simp at hother
        · obtain ⟨leader, hmem, hsame⟩ := List.mem_map.mp hgiven
          rw [← (Prod.mk.inj hsame).2]
          exact hmem
      · -- it was there before the event
        have hbefore := hs _ _ hstored
        rw [(event_put h hevent hmissed).1] at hbefore
        cases hbefore
    · intro hmem
      refine leader_put h ?_ hevent (hunread identity)
      dsimp only
      rw [← List.foldl_map]
      have hgiven : (event.eventId, identity) ∈ leaders.map (event.eventId, ·) :=
        List.mem_map_of_mem hmem
      obtain ⟨entry, hentry⟩ := Option.isSome_iff_exists.mp
        (Table.isSome_find?_foldl_insertNew (t := original.load.leaders.ofEventRemoved event.eventId)
          hgiven)
      obtain rfl : entry = (event.eventId, identity) := Table.key_of_find? hentry
      exact Table.mem_of_find? hentry

end Committed

/-! ## Runs -/

/-- What a request tells of the leaders of an event. -/
def leadersRead : (c : EventMethod.EventRequests.Op) → EventMethod.EventRequests.Ans c →
    Option (List (Item EventDocument))
  | .query _, answer => some answer
  | _, _ => none

/-- A transaction that adds a leader still finds the event, and one that deletes an event it still
finds as it was read has read all of the leaders that are there. -/
def Undisturbed (s : EventRun) : EventMove → Prop
  | .call id i => ∀ (execution : EventExecution) actions,
      s.Calls id execution (.transactWriteItems actions) → i.verdict = .committed →
        match execution.method with
        | .addLeader e _ => (s.world.find? (.event e)).isSome
        | .of (.delete e) => ∀ stored read leaders, s.world.find? (.event e) = some stored →
            latestAnswer dynamoEvents.executions execution.id eventRead s.history =
              some (some read) → read.revision = stored.revision →
            latestAnswer dynamoEvents.executions execution.id leadersRead s.history = some leaders →
              ∀ identity, (s.world.find? (.leader e identity)).isSome →
                ∃ item ∈ leaders, item.document.key = .leader e identity
        | _ => True
  | .outside tables => NoOrphans tables
  | _ => True

/-- A created event starts with the leaders that it is given. -/
def LeaderLaw (record : EventRecord) (_ : List EventRecord) : Prop :=
  match record with
  | .called execution (.transactWriteItems _) _ .committed after =>
    ∀ event leaders, execution.method = .create event leaders →
      ∀ identity, (after.find? (.leader event.eventId identity)).isSome ↔ identity ∈ leaders
  | _ => True

section Loaded

variable {e : EventId} {identity : BotIdentity} {rows leaders : List (Item EventDocument)}
  {event : Option (Item EventDocument)} {item : Item EventDocument}

/-- The event that was loaded is the one that its request has found, -/
theorem event_of_original (hleaders : ∀ item ∈ leaders, item.document.key.partition = some e)
    (hfound : (dynamoEvents.original (event.toList ++ leaders)).find? (.event e) = some item) :
    event = some item := by
  have hkey : item.document.key = .event e := Store.key_of_find? hfound
  rcases List.mem_append.mp (EventMethod.mem_original (Table.mem_of_find? hfound)).1 with hmem | hmem
  · exact Option.mem_toList.mp hmem
  · have hpartition := hleaders item hmem
    rw [hkey] at hpartition
    exact nomatch hpartition

/-- and the leaders are those that were shown. -/
theorem isSome_original_leader (hmem : item ∈ rows) (hkey : item.document.key = .leader e identity) :
    ((dynamoEvents.original rows).find? (.leader e identity)).isSome := by
  have hrecord : item ∈ rows.filter fun item => dynamoEvents.records item.document := by
    refine List.mem_filter.mpr ⟨hmem, ?_⟩
    cases hkind : item.document with
    | lock => rw [hkind] at hkey; exact nomatch hkey
    | _ => rfl
  rw [← hkey]
  exact Table.isSome_find?_ofList hrecord

/-- Where no leaders were queried, none were loaded. -/
theorem original_unread (hevent : ∀ item ∈ event, item.document.key = .event e) :
    (dynamoEvents.original event.toList).find? (.leader e identity) = none := by
  rw [Option.eq_none_iff_forall_ne_some]
  intro item hfound
  have hmem := (EventMethod.mem_original (Table.mem_of_find? hfound)).1
  have hkey : item.document.key = .leader e identity := Store.key_of_find? hfound
  rw [hevent item (Option.mem_toList.mp hmem)] at hkey
  exact nomatch hkey

end Loaded

variable {s₀ s : EventRun}

/-- What one request of an execution keeps. -/
theorem orphans_call {id : Nat} {i : Occasion EventDocument EventSearch}
    {execution : EventExecution} {c : EventMethod.EventRequests.Op}
    {made : List EventMethod.EventRequests.Entry} (hstep : Undisturbed s (.call id i))
    (hcalls : s.Calls id execution c) (hmade : Made dynamoEvents.executions execution s.history made)
    (hworked : dynamoEvents.WorkedOut EventMethod.Fetches execution.method made c)
    (horphans : NoOrphans s.world) :
    LeaderLaw (.called execution c s.world (dynamoEvents.perform c i s.world).1
      (dynamoEvents.perform c i s.world).2) s.history ∧
      NoOrphans (dynamoEvents.perform c i s.world).2 := by
  cases c with
  | transactWriteItems actions =>
    obtain ⟨now, rows, rest, answer, rfl, hfetched, hworked, -⟩ := hworked
    obtain ⟨memory, hrun, rfl⟩ := DynamoRepository.worksOut_eq_ok.mp hworked
    cases hverdict : i.verdict with
    | cancelled | failed =>
      simp only [DynamoRepository.perform, hverdict]
      exact ⟨trivial, horphans⟩
    | committed =>
      have hperform : dynamoEvents.perform (.transactWriteItems
          (dynamoEvents.actions now (dynamoEvents.original rows) memory)) i s.world =
            transact (dynamoEvents.actions now (dynamoEvents.original rows) memory) s.world := by
        simp only [DynamoRepository.perform, hverdict]
      have hguard := hstep execution _ hcalls hverdict
      rw [hperform]
      constructor
      · cases houtcome : (transact (dynamoEvents.actions now (dynamoEvents.original rows) memory)
            s.world).1 with
        | cancelled | failed => trivial
        | committed =>
          intro event leaders hm identity
          have hrows : execution.method.rows = .item event.eventId false := by rw [hm]; rfl
          rw [EventMethod.Fetches, hrows] at hfetched
          obtain ⟨found, rest, rfl, hkey, rfl⟩ := hfetched
          exact leaders_created (EventMethod.create_of_run hm hrun) (committed_of_transact houtcome)
            horphans (fun _ => original_unread hkey) identity
      · rcases transact_cases (dynamoEvents.actions now (dynamoEvents.original rows) memory) s.world
          with hsame | hcommitted
        · rw [hsame]
          exact horphans
        · refine noOrphans_committed hrun hcommitted horphans ?_ ?_
          · intro e leader hm
            rw [hm] at hguard
            exact hguard
          · intro e hm stored read hfound hevent hrevision identity hleader
            rw [hm] at hguard
            have hrows : execution.method.rows = .item e true := by rw [hm]; rfl
            rw [EventMethod.Fetches, hrows] at hfetched
            obtain ⟨event, leaders, rest, rfl, -, hleaders, rfl⟩ := hfetched
            obtain rfl : event = some read := event_of_original hleaders hfound
            have hread : latestAnswer dynamoEvents.executions execution.id eventRead s.history =
                some (some read) := hmade.latestAnswer_eq rfl
            have hshown : latestAnswer dynamoEvents.executions execution.id leadersRead s.history =
                some leaders := hmade.latestAnswer_eq rfl
            obtain ⟨item, hitem, hkey⟩ :=
              hguard stored read leaders hevent hread hrevision.symm hshown identity hleader
            exact isSome_original_leader (List.mem_append_right _ hitem) hkey
  | _ => exact ⟨trivial, horphans⟩

/-- In every run in which a transaction that adds a leader still finds the event, and one that
deletes an event has read all of its leaders, every leader row belongs to an event, and a created
event starts with exactly the leaders that it is given. -/
theorem no_orphan_leaders
    (hs : Fleet.Reaches dynamoEvents.executions dynamoEvents.perform Undisturbed s₀ s)
    (hidle : s₀.Idle) (hnew : s₀.history = []) (horphans : NoOrphans s₀.world) :
    NoOrphans s.world ∧ Along LeaderLaw s.history := by
  have hreached := hs.trace_rule (A := EventMethod.Fits)
    (T := fun execution => dynamoEvents.WorkedOut EventMethod.Fetches execution.method)
    (X := fun _ _ _ => True) (Q := fun _ _ _ => True) (K := fun _ _ => True)
    (fun history tables => NoOrphans tables ∧ Along LeaderLaw history) hidle
    ⟨horphans, by rw [hnew]; trivial⟩ EventMethod.traced_execution (fun _ _ _ _ => trivial)
    (fun _ _ _ _ => trivial) (fun s tables htables hinv => ⟨htables, hinv.2⟩)
    (fun s id i c _ _ => EventMethod.fits_perform c i s.world) ?_ ?_
  · exact hreached.1
  · intro s id i execution c made hstep hcalls _ hmade hworked ⟨horphans, hlaw⟩
    obtain ⟨hrecord, hafter⟩ := orphans_call hstep hcalls hmade hworked horphans
    exact ⟨hafter, hrecord, hlaw⟩
  · exact fun s id execution value made _ _ _ _ _ ⟨horphans, hlaw⟩ => ⟨horphans, trivial, hlaw⟩

/-! ### A leader is added while the game is deleted -/

section Samples

def secondMaster : BotIdentity :=
  ⟨.telegram, 2⟩

def addition : EventExecution :=
  ⟨3, .addLeader "game" secondMaster⟩

def deletion : EventExecution :=
  ⟨4, .of (.delete "game")⟩

def recreation : EventExecution :=
  ⟨5, .create sampleGame [sampleMaster]⟩

def started (execution : EventExecution) (n : Nat) : List EventMove :=
  [.publish execution, .start execution.id] ++ requestsOf execution n

/-- The game gets a second master, is deleted, and is created once more. -/
def orderlySchedule : List EventMove :=
  started creation 3 ++ started addition 4 ++ started deletion 4 ++ started recreation 3

/-- The deletion overtakes the addition. -/
def deletedSchedule : List EventMove :=
  started creation 3 ++ started addition 3 ++ started deletion 4 ++ requestsOf addition 1

/-- The addition overtakes the deletion. -/
def addedSchedule : List EventMove :=
  started creation 3 ++ started deletion 3 ++ started addition 4 ++ requestsOf deletion 1

def tablesAfter (schedule : List EventMove) : EventRun :=
  emptyTables.play dynamoEvents.executions dynamoEvents.perform schedule

/-- The step passes the condition on the transactions, as far as it can be read off a run. -/
def undisturbed (s : EventRun) : EventMove → Bool
  | .call id _ => match s.pending id with
    | some (execution, .transactWriteItems _) => match execution.method with
      | .addLeader e _ => (s.world.find? (.event e)).isSome
      | .of (.delete e) =>
        match latestAnswer dynamoEvents.executions execution.id leadersRead s.history with
        | some leaders => s.world.rows.all fun stored =>
          stored.document.key.partition ≠ some e ||
            leaders.any fun item => item.document.key = stored.document.key
        | none => false
      | _ => true
    | _ => true
  | .outside _ => false
  | _ => true

theorem undisturbed_of_check {s : EventRun} {l : EventMove} (h : undisturbed s l = true) :
    Undisturbed s l := by
  cases l with
  | call id i =>
    intro execution actions hcalls _
    rw [undisturbed, hcalls.pending] at h
    dsimp only at h
    split at h
    · exact h
    · next e hm =>
      intro stored read leaders _ _ _ hshown identity hleader
      rw [hshown] at h
      obtain ⟨row, hrow⟩ := Option.isSome_iff_exists.mp hleader
      have hkey : row.document.key = .leader e identity := Store.key_of_find? hrow
      have hread := List.all_eq_true.mp h row (Table.mem_of_find? hrow)
      rw [hkey] at hread
      simpa [EventKey.partition] using hread
    · trivial
  | outside => exact nomatch h
  | _ => trivial

theorem orderly_no_orphans : NoOrphans (tablesAfter orderlySchedule).world ∧
    Along LeaderLaw (tablesAfter orderlySchedule).history ∧
    ((tablesAfter orderlySchedule).world.find? (.leader "game" sampleMaster)).isSome ∧
    (tablesAfter orderlySchedule).world.find? (.leader "game" secondMaster) = none := by
  have hrows : ((tablesAfter orderlySchedule).world.find? (.leader "game" sampleMaster)).isSome ∧
      (tablesAfter orderlySchedule).world.find? (.leader "game" secondMaster) = none := by
    decide +kernel
  have hreached : Fleet.Reaches dynamoEvents.executions dynamoEvents.perform Undisturbed
      emptyTables (tablesAfter orderlySchedule) := by
    have hcheck : Fleet.Meets dynamoEvents.executions dynamoEvents.perform
        (fun s l => undisturbed s l = true) emptyTables orderlySchedule := by
      decide +kernel
    exact (Fleet.Reaches.refl.play_meets hcheck).mono fun s l h => undisturbed_of_check h
  generalize tablesAfter orderlySchedule = s at hrows hreached ⊢
  have hempty : NoOrphans emptyTables.world := fun _ _ h => nomatch h
  obtain ⟨horphans, hlaw⟩ := no_orphan_leaders hreached (fun _ => rfl) rfl hempty
  exact ⟨horphans, hlaw, hrows⟩

/-- Whichever overtakes the other, the second master is left without the game, and a game that is
created once more has a master that it was not given. -/
theorem overtaken_orphans :
    (∀ schedule ∈ [deletedSchedule, addedSchedule],
      Fleet.Reaches dynamoEvents.executions dynamoEvents.perform (fun _ _ => True) emptyTables
        (tablesAfter schedule) ∧
      (tablesAfter schedule).world.find? (.event "game") = none ∧
      ((tablesAfter schedule).world.find? (.leader "game" secondMaster)).isSome) ∧
    ((tablesAfter (deletedSchedule ++ started recreation 3)).world.find? (.event "game")).isSome ∧
    ((tablesAfter (deletedSchedule ++ started recreation 3)).world.find?
      (.leader "game" secondMaster)).isSome := by
  have hreaches (schedule : List EventMove) : Fleet.Reaches dynamoEvents.executions
      dynamoEvents.perform (fun _ _ => True) emptyTables (tablesAfter schedule) :=
    Fleet.Reaches.refl.play fun _ _ _ => trivial
  have horphans : ∀ schedule ∈ [deletedSchedule, addedSchedule],
      (tablesAfter schedule).world.find? (.event "game") = none ∧
      ((tablesAfter schedule).world.find? (.leader "game" secondMaster)).isSome := by
    decide +kernel
  refine ⟨fun schedule hmem => ⟨hreaches schedule, horphans schedule hmem⟩, ?_⟩
  decide +kernel

end Samples

end LarpBot
