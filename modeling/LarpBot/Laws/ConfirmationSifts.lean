import LarpBot.Laws.PromotionOffers

/-!
# Confirmation sifts

The worker predicts a sift by sorting: it takes the confirmed rows ahead of the waiting ones, cuts the
options' heads out of that order and writes down who enters and who leaves the main roster. The repository
makes the sift by moving the waiting rows behind the spread of the whole event. Both come to the same
queues (`keys_sift`), so the notices that the worker has written down are for exactly those who moved
(`sift_rosters`).
-/

namespace LarpBot

open Atomic Act

variable {event : Event} {t : Registrations} {e : EventId} {row u v : Registration} {answerId : Option String}
  {key : ParticipantKey} {shift : Time}

/-! ## The rows of a sift -/

section Rows

/-- What the sift makes of a row of its event. -/
def siftedRow (shift : Time) (row : Registration) : Registration :=
  if row.attendanceStatus = .waiting then Registrations.siftRow shift row else row

theorem siftRow_core : (Registrations.siftRow shift row).participantKey = row.participantKey ∧
    (Registrations.siftRow shift row).attendanceStatus = row.attendanceStatus ∧
    (Registrations.siftRow shift row).answerId = row.answerId ∧
    (Registrations.siftRow shift row).eventId = row.eventId := by
  unfold Registrations.siftRow
  split <;> exact ⟨rfl, rfl, rfl, rfl⟩

@[simp] theorem participantKey_siftedRow : (siftedRow shift row).participantKey = row.participantKey := by
  unfold siftedRow
  split
  · exact siftRow_core.1
  · rfl

@[simp] theorem attendanceStatus_siftedRow :
    (siftedRow shift row).attendanceStatus = row.attendanceStatus := by
  unfold siftedRow
  split
  · exact siftRow_core.2.1
  · rfl

@[simp] theorem answerId_siftedRow : (siftedRow shift row).answerId = row.answerId := by
  unfold siftedRow
  split
  · exact siftRow_core.2.2.1
  · rfl

@[simp] theorem isActive_siftedRow : isActive (siftedRow shift row) = isActive row := by
  unfold isActive
  rw [attendanceStatus_siftedRow]

theorem queueTime_siftedRow (shift : Time) (h : Settled row) : queueTime (siftedRow shift row) =
    if row.attendanceStatus = .waiting then queueTime row + shift else queueTime row := by
  unfold siftedRow
  split
  · next hwaiting =>
    unfold Registrations.siftRow
    cases hanswer : row.answerId with
    | some answer => rfl
    | none =>
      have hnone : row.answerQueueAt = none := h hanswer
      simp only [Option.isSome_none, Bool.false_eq_true, if_false]
      unfold queueTime
      rw [hnone]
      rfl
  · rfl

theorem ofEvent_sifted : (t.sifted e).ofEvent e = (t.ofEvent e).map (siftedRow (t.siftShift e)) := by
  unfold Registrations.ofEvent Registrations.sifted
  rw [Table.rows_mapRows, List.filter_map]
  have hevent : ((fun row => decide (row.eventId = e)) ∘ fun row : Registration =>
      if row.eventId = e ∧ row.attendanceStatus = .waiting then Registrations.siftRow (t.siftShift e) row else row) =
        fun row => decide (row.eventId = e) := by
    funext row
    rw [Function.comp_apply]
    split
    · rw [siftRow_core.2.2.2]
    · rfl
  rw [hevent]
  refine List.map_congr_left fun row hrow => ?_
  have hin : row.eventId = e := of_decide_eq_true (List.mem_filter.mp hrow).2
  unfold siftedRow
  simp only [hin, true_and]

/-- Active rows of an event are at most the shift less one microsecond apart. -/
theorem queueTime_lt_add_shift (hu : u ∈ t.ofEvent e) (hv : v ∈ t.ofEvent e) (huactive : isActive u)
    (hvactive : isActive v) : queueTime u < queueTime v + t.siftShift e := by
  have hutime : queueTime u ∈ ((t.ofEvent e).filter isActive).map queueTime :=
    List.mem_map_of_mem (List.mem_filter.mpr ⟨hu, huactive⟩)
  have hvtime : queueTime v ∈ ((t.ofEvent e).filter isActive).map queueTime :=
    List.mem_map_of_mem (List.mem_filter.mpr ⟨hv, hvactive⟩)
  unfold Registrations.siftShift
  dsimp only
  generalize ((t.ofEvent e).filter isActive).map queueTime = times at hutime hvtime
  cases hmax : times.max? with
  | none =>
    rw [List.max?_eq_none_iff.mp hmax] at hutime
    exact nomatch hutime
  | some latest =>
    cases hmin : times.min? with
    | none =>
      rw [List.min?_eq_none_iff.mp hmin] at hutime
      exact nomatch hutime
    | some earliest =>
      have hle : queueTime u ≤ latest := (List.max?_eq_some_iff.mp hmax).2 _ hutime
      have hge : earliest ≤ queueTime v := (List.min?_eq_some_iff.mp hmin).2 _ hvtime
      calc queueTime u ≤ latest := hle
        _ = earliest + (latest - earliest) := by rw [Int.add_comm, Int.sub_add_cancel]
        _ < earliest + (latest - earliest + microsecond) := Int.add_lt_add_left (Int.lt_succ _) _
        _ ≤ queueTime v + (latest - earliest + microsecond) := Int.add_le_add_right hge _

/-- The order that the worker sorts by is the order that the repository makes. -/
theorem queueKey_siftedRow_le (ht : ∀ row ∈ t.rows, Settled row) (hu : u ∈ t.ofEvent e) (hv : v ∈ t.ofEvent e)
    (huactive : isActive u) (hvactive : isActive v) (h : siftKey u ≤ siftKey v) :
    queueKey (siftedRow (t.siftShift e) u) ≤ queueKey (siftedRow (t.siftShift e) v) := by
  have hustatus : u.attendanceStatus ≠ .cancelled := of_decide_eq_true huactive
  have hvstatus : v.attendanceStatus ≠ .cancelled := of_decide_eq_true hvactive
  have hutime := queueTime_siftedRow (t.siftShift e) (ht u (mem_ofEvent.mp hu).1)
  have hvtime := queueTime_siftedRow (t.siftShift e) (ht v (mem_ofEvent.mp hv).1)
  unfold siftKey at h
  unfold queueKey
  rw [participantKey_siftedRow, participantKey_siftedRow, Prod.Lex.toLex_le_toLex]
  rcases Prod.Lex.toLex_le_toLex.mp h with hgroup | ⟨hgroup, hkey⟩
  · -- a confirmed row and a waiting one
    obtain ⟨hconfirmed, hother⟩ : u.attendanceStatus = .confirmed ∧ v.attendanceStatus ≠ .confirmed := by
      have hlt : decide (u.attendanceStatus ≠ .confirmed) < decide (v.attendanceStatus ≠ .confirmed) := hgroup
      obtain ⟨hfalse, htrue⟩ := Bool.lt_iff.mp hlt
      exact ⟨by simpa using hfalse, of_decide_eq_true htrue⟩
    have hwaiting : v.attendanceStatus = .waiting := by
      cases hstatus : v.attendanceStatus with
      | waiting => rfl
      | confirmed => exact absurd hstatus hother
      | cancelled => exact absurd hstatus hvstatus
    rw [if_pos hwaiting] at hvtime
    rw [hconfirmed, if_neg nofun] at hutime
    left
    rw [hutime, hvtime]
    exact queueTime_lt_add_shift hu hv huactive hvactive
  · have hsame : u.attendanceStatus = .waiting ↔ v.attendanceStatus = .waiting := by
      have hgroup : decide (u.attendanceStatus ≠ .confirmed) = decide (v.attendanceStatus ≠ .confirmed) := hgroup
      rw [decide_eq_decide] at hgroup
      cases hu : u.attendanceStatus <;> cases hv : v.attendanceStatus <;> simp_all
    have hkey : toLex (queueTime u, u.participantKey) ≤ toLex (queueTime v, v.participantKey) := hkey
    rw [hutime, hvtime]
    simp only [hsame]
    rcases Prod.Lex.toLex_le_toLex.mp hkey with hlt | ⟨heq, hle⟩
    · left
      split
      · exact Int.add_lt_add_right hlt _
      · exact hlt
    · right
      refine ⟨?_, hle⟩
      have heq : queueTime u = queueTime v := heq
      rw [heq]

end Rows

/-! ## The queues of a sift -/

section Queues

/-- The confirmed rows ahead of the others. -/
def confirmedFirst (queue : List Registration) : List Registration :=
  queue.filter (fun row => !decide (row.attendanceStatus ≠ .confirmed)) ++
    queue.filter fun row => decide (row.attendanceStatus ≠ .confirmed)

theorem activeQueue_listForEvent : activeQueue (t.listForEvent e) answerId = sortBy queueKey
    ((t.ofEvent e).filter fun row => isActive row && (answerId.isNone || row.answerId = answerId)) :=
  sortBy_eq_of_perm ((ranks_ofEvent t e).filter _) ((sortBy_perm Registrations.listKey _).filter _)

theorem activeQueue_sift (ht : ∀ row ∈ t.rows, Settled row) :
    activeQueue ((t.sifted e).listForEvent e) answerId =
      (confirmedFirst (activeQueue (t.listForEvent e) answerId)).map (siftedRow (t.siftShift e)) := by
  have hqueued : ((fun row => isActive row && (answerId.isNone || row.answerId = answerId)) ∘
      siftedRow (t.siftShift e)) = fun row => isActive row && (answerId.isNone || row.answerId = answerId) := by
    funext row
    simp only [Function.comp_apply, isActive_siftedRow, answerId_siftedRow]
  rw [activeQueue_listForEvent, activeQueue_listForEvent, ofEvent_sifted, List.filter_map, hqueued, sortBy_map]
  generalize hmembers :
    ((t.ofEvent e).filter fun row => isActive row && (answerId.isNone || row.answerId = answerId)) =
    members
  have hmem {row : Registration} (hrow : row ∈ members) : row ∈ t.ofEvent e ∧ isActive row := by
    rw [← hmembers] at hrow
    obtain ⟨hin, hqueued⟩ := List.mem_filter.mp hrow
    exact ⟨hin, (Bool.and_eq_true _ _ ▸ hqueued).1⟩
  have hranks : Ranks (fun row => queueKey (siftedRow (t.siftShift e) row)) members := by
    intro u hu v hv hkey
    have hkey := congrArg (fun k => (ofLex k).2) hkey
    have hkey : (siftedRow (t.siftShift e) u).participantKey = (siftedRow (t.siftShift e) v).participantKey := hkey
    rw [participantKey_siftedRow, participantKey_siftedRow] at hkey
    obtain ⟨hu, huevent⟩ := mem_ofEvent.mp (hmem hu).1
    obtain ⟨hv, hvevent⟩ := mem_ofEvent.mp (hmem hv).1
    exact Table.eq_of_key_eq hu hv (Prod.ext (huevent.trans hvevent.symm) hkey)
  have hsort : sortBy siftKey members = sortBy (fun row => queueKey (siftedRow (t.siftShift e) row)) members := by
    refine sortBy_unique hranks (sortBy_perm siftKey members)
      ((sortBy_pairwise siftKey members).imp_of_mem fun {u v} hu hv hkey => ?_)
    obtain ⟨hu, huactive⟩ := hmem (mem_sortBy.mp hu)
    obtain ⟨hv, hvactive⟩ := hmem (mem_sortBy.mp hv)
    exact queueKey_siftedRow_le ht hu hv huactive hvactive hkey
  have hmembersRank : Ranks queueKey members := hmembers ▸ (ranks_ofEvent t e).filter _
  rw [← hsort]
  exact congrArg _ (sortBy_grouped hmembersRank)

/-- The worker's prediction. -/
theorem sortBy_siftKey (hranks : Ranks queueKey (activeQueue (t.listForEvent e) answerId)) :
    sortBy siftKey (activeQueue (t.listForEvent e) answerId) =
      confirmedFirst (activeQueue (t.listForEvent e) answerId) := by
  have hsorted : sortBy queueKey (activeQueue (t.listForEvent e) answerId) =
      activeQueue (t.listForEvent e) answerId :=
    sortBy_of_pairwise (sortBy_pairwise _ _)
  have hgrouped := sortBy_grouped (p := fun row : Registration => decide (row.attendanceStatus ≠ .confirmed)) hranks
  rw [hsorted] at hgrouped
  exact hgrouped

theorem ranks_activeQueue : Ranks queueKey (activeQueue (t.listForEvent e) answerId) := by
  rw [activeQueue_listForEvent]
  exact ((ranks_ofEvent t e).filter _).subset fun row hrow => mem_sortBy.mp hrow

theorem filter_confirmedFirst {queue : List Registration} (p : Registration → Bool) :
    (confirmedFirst queue).filter p = confirmedFirst (queue.filter p) := by
  unfold confirmedFirst
  rw [List.filter_append, List.filter_comm, List.filter_comm p]

theorem filter_activeQueue {optionId : String} :
    (activeQueue (t.listForEvent e)).filter (·.answerId = some optionId) =
      activeQueue (t.listForEvent e) (some optionId) := by
  rw [activeQueue_listForEvent, activeQueue_listForEvent, filter_sortBy ((ranks_ofEvent t e).filter _),
    List.filter_filter]
  congr 1
  apply List.filter_congr
  intro row _
  simp [Bool.and_comm]

/-- What the worker expects of the main roster is what the repository makes of it. -/
theorem mainRoster_sift (ht : ∀ row ∈ t.rows, Settled row) :
    mainRoster event ((t.sifted event.eventId).listForEvent event.eventId) =
      (siftedMain event (sortBy siftKey (activeQueue (t.listForEvent event.eventId)))).map
        (siftedRow (t.siftShift event.eventId)) := by
  rw [sortBy_siftKey ranks_activeQueue]
  unfold mainRoster siftedMain
  cases event.registrationQuestion with
  | none =>
    dsimp only
    rw [activeQueue_sift ht, List.map_take]
  | some question =>
    dsimp only
    rw [List.map_flatMap]
    refine List.flatMap_congr fun option _ => ?_
    rw [activeQueue_sift ht, filter_confirmedFirst, filter_activeQueue, List.map_take]

end Queues

/-! ## Who moves -/

section Moves

variable {rows rows' : List Registration}

/-- What a sift makes of the rows of an event, with the entries that it leaves for the notices. -/
structure Sifted (event : Event) (rows rows' : List Registration) (moves : List String) : Prop where
  queues : ∀ answerId, (activeQueue rows' answerId).map Registration.participantKey =
    (confirmedFirst (activeQueue rows answerId)).map Registration.participantKey
  final : siftChanges (activeQueue rows') = false
  promoted : ∀ key, siftSnapshotEntry .promoted key ∈ moves ↔
    key ∈ (mainRoster event rows').map Registration.participantKey ∧
      key ∉ (mainRoster event rows).map Registration.participantKey
  demoted : ∀ key, siftSnapshotEntry .demoted key ∈ moves ↔
    key ∈ (mainRoster event rows).map Registration.participantKey ∧
      key ∉ (mainRoster event rows').map Registration.participantKey
  entering : ∀ row ∈ rows, isActive row →
    row.participantKey ∈ (mainRoster event rows').map Registration.participantKey →
    row.participantKey ∉ (mainRoster event rows).map Registration.participantKey → row.attendanceStatus = .confirmed
  leaving : ∀ row ∈ rows, isActive row →
    row.participantKey ∈ (mainRoster event rows).map Registration.participantKey →
    row.participantKey ∉ (mainRoster event rows').map Registration.participantKey → row.attendanceStatus = .waiting

theorem siftSnapshotEntry_inj {move move' : SiftMove} {key key' : ParticipantKey} :
    siftSnapshotEntry move key = siftSnapshotEntry move' key' ↔ move = move' ∧ key = key' := by
  constructor
  · intro h
    have hlist := congrArg String.toList h
    unfold siftSnapshotEntry at hlist
    rw [String.toList_append, String.toList_append] at hlist
    have hmove : move = move' := by
      have hhead := congrArg List.head? hlist
      cases move <;> cases move'
      · rfl
      · exact absurd hhead (by simp [SiftMove.tag, siftPromotedPrefix, siftDemotedPrefix])
      · exact absurd hhead (by simp [SiftMove.tag, siftPromotedPrefix, siftDemotedPrefix])
      · rfl
    subst hmove
    exact ⟨rfl, String.toList_injective (List.append_cancel_left hlist)⟩
  · rintro ⟨rfl, rfl⟩
    rfl

theorem mainRoster_activeQueue (hkeys : (rows.map Registration.participantKey).Nodup) :
    mainRoster event (activeQueue rows) = mainRoster event rows := by
  have hqueue (answerId : Option String) : activeQueue (activeQueue rows) answerId = activeQueue rows answerId :=
    activeQueue_active hkeys (perm_activeQueue rows) answerId
  unfold mainRoster
  simp only [hqueue]

theorem mem_confirmedFirst {queue : List Registration} : row ∈ confirmedFirst queue ↔ row ∈ queue := by
  unfold confirmedFirst
  rw [List.mem_append, List.mem_filter, List.mem_filter]
  cases decide (row.attendanceStatus ≠ .confirmed) <;> simp

theorem siftedMain_subset {reordered : List Registration} (h : row ∈ siftedMain event reordered) :
    row ∈ reordered := by
  unfold siftedMain at h
  cases hquestion : event.registrationQuestion with
  | none =>
    rw [hquestion] at h
    exact List.mem_of_mem_take h
  | some question =>
    rw [hquestion] at h
    obtain ⟨option, -, hin⟩ := List.mem_flatMap.mp h
    exact (List.mem_filter.mp (List.mem_of_mem_take hin)).1

/-- A row of the predicted main roster, in its own queue. -/
theorem mem_siftedMain :
    row ∈ siftedMain event (confirmedFirst (activeQueue (t.listForEvent event.eventId))) ↔
      ∃ capacity, answerCapacity event row.answerId = some capacity ∧
        row ∈ (confirmedFirst (answerQueue event (t.listForEvent event.eventId) row.answerId)).take capacity := by
  unfold siftedMain answerCapacity answerQueue
  cases hquestion : event.registrationQuestion with
  | none => simp
  | some question =>
    simp only [Option.isSome_some, if_true, List.mem_flatMap, filter_confirmedFirst, filter_activeQueue]
    constructor
    · rintro ⟨option, hoption, hin⟩
      have hanswer : row.answerId = some option.optionId := by
        have hqueue := mem_confirmedFirst.mp (List.mem_of_mem_take hin)
        simpa using (mem_activeQueue.mp hqueue).2.2
      rw [hanswer]
      refine ⟨option.playerAmount, ?_, hin⟩
      rw [RegistrationQuestion.option_of_mem hoption]
      rfl
    · rintro ⟨capacity, hcapacity, hin⟩
      obtain ⟨option, hfound, rfl⟩ := Option.map_eq_some_iff.mp hcapacity
      obtain ⟨hoption, hanswer⟩ := RegistrationQuestion.mem_of_option hfound
      rw [← hanswer] at hin
      exact ⟨option, hoption, hin⟩

theorem keys_mainRoster_sift (ht : ∀ row ∈ t.rows, Settled row) :
    (mainRoster event ((t.sifted event.eventId).listForEvent event.eventId)).map Registration.participantKey =
      (siftedMain event (confirmedFirst (activeQueue (t.listForEvent event.eventId)))).map
        Registration.participantKey := by
  rw [mainRoster_sift ht, sortBy_siftKey ranks_activeQueue, List.map_map]
  exact List.map_congr_left fun row _ => participantKey_siftedRow

/-- Rows of one event are told apart by their keys. -/
theorem mem_of_key {members : List Registration} (hsub : ∀ u ∈ members, u ∈ t.listForEvent e)
    (hrow : row ∈ t.listForEvent e) :
    row.participantKey ∈ members.map Registration.participantKey ↔ row ∈ members := by
  constructor
  · intro h
    obtain ⟨u, hu, hkey⟩ := List.mem_map.mp h
    rw [← eq_of_key (keys_listForEvent t e) (hsub u hu) hrow hkey]
    exact hu
  · exact List.mem_map_of_mem

theorem mem_entries {move move' : SiftMove} {members : List Registration} :
    siftSnapshotEntry move key ∈ members.map (siftSnapshotEntry move' ·.participantKey) ↔
      move = move' ∧ key ∈ members.map Registration.participantKey := by
  rw [List.mem_map, List.mem_map]
  constructor
  · rintro ⟨row, hrow, heq⟩
    obtain ⟨rfl, hkey⟩ := siftSnapshotEntry_inj.mp heq
    exact ⟨rfl, row, hrow, hkey⟩
  · rintro ⟨rfl, row, hrow, rfl⟩
    exact ⟨row, hrow, rfl⟩

/-- The keys of the rows that are under these keys and not under those. -/
theorem mem_keys_moved {queue now : List Registration} {before : List ParticipantKey}
    (hin : ∀ row ∈ now, row ∈ queue) :
    key ∈ (queue.filter fun row => row.participantKey ∈ now.map Registration.participantKey &&
        row.participantKey ∉ before).map Registration.participantKey ↔
      key ∈ now.map Registration.participantKey ∧ key ∉ before := by
  constructor
  · intro hkey
    obtain ⟨row, hrow, rfl⟩ := List.mem_map.mp hkey
    simpa using (List.mem_filter.mp hrow).2
  · rintro ⟨hkey, hout⟩
    obtain ⟨row, hrow, rfl⟩ := List.mem_map.mp hkey
    refine List.mem_map_of_mem (List.mem_filter.mpr ⟨hin row hrow, ?_⟩)
    rw [Bool.and_eq_true, decide_eq_true_eq, decide_eq_true_eq]
    exact ⟨hkey, hout⟩

theorem confirmedFirst_map {queue : List Registration} :
    confirmedFirst (queue.map (siftedRow shift)) = (confirmedFirst queue).map (siftedRow shift) := by
  unfold confirmedFirst
  rw [List.filter_map, List.filter_map, List.map_append]
  simp only [Function.comp_def, attendanceStatus_siftedRow]

theorem confirmedFirst_confirmedFirst {queue : List Registration} :
    confirmedFirst (confirmedFirst queue) = confirmedFirst queue := by
  unfold confirmedFirst
  rw [List.filter_append, List.filter_append, List.filter_filter, List.filter_filter, List.filter_filter,
    List.filter_filter]
  simp

/-- After a sift there is nothing to sift. -/
theorem siftChanges_sifted (ht : ∀ row ∈ t.rows, Settled row) :
    siftChanges (activeQueue ((t.sifted e).listForEvent e)) = false := by
  have hsorted : sortBy siftKey (activeQueue ((t.sifted e).listForEvent e)) =
      activeQueue ((t.sifted e).listForEvent e) := by
    rw [sortBy_siftKey ranks_activeQueue, activeQueue_sift ht, confirmedFirst_map, confirmedFirst_confirmedFirst]
  unfold siftChanges
  rw [hsorted]
  exact decide_eq_false (not_not.mpr rfl)

/-- The entries of the worker are for the rows that enter and for those that leave. -/
theorem sifted_of_prediction
    (hqueues : ∀ answerId, (activeQueue rows' answerId).map Registration.participantKey =
      (confirmedFirst (activeQueue (t.listForEvent event.eventId) answerId)).map Registration.participantKey)
    (hfinal : siftChanges (activeQueue rows') = false)
    (hafter : (mainRoster event rows').map Registration.participantKey =
      (siftedMain event (confirmedFirst (activeQueue (t.listForEvent event.eventId)))).map
        Registration.participantKey) :
    Sifted event (t.listForEvent event.eventId) rows'
      (siftMoves event (activeQueue (t.listForEvent event.eventId))) := by
  have hkeys := keys_listForEvent t event.eventId
  have hpredicted (u : Registration)
      (hu : u ∈ siftedMain event (confirmedFirst (activeQueue (t.listForEvent event.eventId)))) :
      u ∈ activeQueue (t.listForEvent event.eventId) := mem_confirmedFirst.mp (siftedMain_subset hu)
  have hmain (u : Registration) (hu : u ∈ mainRoster event (t.listForEvent event.eventId)) :
      u ∈ activeQueue (t.listForEvent event.eventId) := by
    obtain ⟨hrow, hon⟩ := mem_of_mem_mainRoster hu
    exact mem_activeQueue.mpr ⟨hrow, hon, by simp⟩
  have hactive (u : Registration) (hu : u ∈ activeQueue (t.listForEvent event.eventId)) :
      u ∈ t.listForEvent event.eventId := (mem_activeQueue.mp hu).1
  have hnodup (answerId : Option String) :
      (answerQueue event (t.listForEvent event.eventId) answerId).Nodup := nodup_activeQueue hkeys.of_map _
  refine ⟨hqueues, hfinal, fun key => ?_, fun key => ?_, fun row hrow hon hin hout => ?_,
    fun row hrow hon hin hout => ?_⟩
  · unfold siftMoves
    dsimp only
    rw [mainRoster_activeQueue hkeys, sortBy_siftKey ranks_activeQueue, hafter, List.mem_append, mem_entries,
      mem_entries, mem_keys_moved fun u => siftedMain_subset]
    simp
  · unfold siftMoves
    dsimp only
    rw [mainRoster_activeQueue hkeys, sortBy_siftKey ranks_activeQueue, hafter, List.mem_append, mem_entries,
      mem_entries, mem_keys_moved hmain]
    simp
  · rw [hafter, mem_of_key (fun u hu => hactive u (hpredicted u hu)) hrow] at hin
    rw [mem_of_key (fun u hu => hactive u (hmain u hu)) hrow] at hout
    obtain ⟨capacity, hcapacity, hahead⟩ := mem_siftedMain.mp hin
    by_contra hother
    exact hout (mem_mainRoster_own.mpr ⟨capacity, hcapacity,
      mem_take_second (hnodup _) (mem_answerQueue.mpr ⟨hrow, hon⟩) (decide_eq_true hother) hahead⟩)
  · rw [hafter, mem_of_key (fun u hu => hactive u (hpredicted u hu)) hrow] at hout
    rw [mem_of_key (fun u hu => hactive u (hmain u hu)) hrow] at hin
    obtain ⟨capacity, hcapacity, hahead⟩ := mem_mainRoster_own.mp hin
    have hon' : row.attendanceStatus ≠ .cancelled := of_decide_eq_true hon
    cases hstatus : row.attendanceStatus with
    | waiting => rfl
    | cancelled => exact absurd hstatus hon'
    | confirmed =>
      have hfirst : decide (row.attendanceStatus ≠ .confirmed) = false := by simp [hstatus]
      exact absurd (mem_siftedMain.mpr ⟨capacity, hcapacity,
        mem_take_first (hnodup _) (mem_answerQueue.mpr ⟨hrow, hon⟩) hfirst hahead⟩) hout

theorem sifted_sifted (ht : ∀ row ∈ t.rows, Settled row) :
    Sifted event (t.listForEvent event.eventId) ((t.sifted event.eventId).listForEvent event.eventId)
      (siftMoves event (activeQueue (t.listForEvent event.eventId))) := by
  refine sifted_of_prediction (fun answerId => ?_) (siftChanges_sifted ht) (keys_mainRoster_sift ht)
  rw [activeQueue_sift ht, List.map_map]
  exact List.map_congr_left fun row _ => participantKey_siftedRow

theorem confirmedFirst_of_unchanged (h : siftChanges (activeQueue (t.listForEvent event.eventId)) = false) :
    confirmedFirst (activeQueue (t.listForEvent event.eventId)) = activeQueue (t.listForEvent event.eventId) := by
  have hkeys := of_decide_eq_false h
  rw [not_not, sortBy_siftKey ranks_activeQueue] at hkeys
  have hmembers : ∀ row ∈ activeQueue (t.listForEvent event.eventId), row ∈ queueMembers event t none := by
    intro row hrow
    rw [activeQueue_listForEvent] at hrow
    obtain ⟨hin, hon⟩ := List.mem_filter.mp (mem_sortBy.mp hrow)
    obtain ⟨hstored, hevent⟩ := mem_ofEvent.mp hin
    exact mem_queueMembers.mpr ⟨hstored, hevent, (Bool.and_eq_true _ _ ▸ hon).1, fun _ => .inl rfl⟩
  exact (eq_of_map_participantKey hmembers (fun row hrow => hmembers row (mem_confirmedFirst.mp hrow)) hkeys).symm

theorem siftedMain_activeQueue : siftedMain event (activeQueue (t.listForEvent e)) =
    mainRoster event (t.listForEvent e) := by
  unfold mainRoster siftedMain
  cases event.registrationQuestion with
  | none => rfl
  | some question => simp only [filter_activeQueue]

/-- Rows that are in order are sifted as they are. -/
theorem sifted_self (h : siftChanges (activeQueue (t.listForEvent event.eventId)) = false) :
    Sifted event (t.listForEvent event.eventId) (t.listForEvent event.eventId)
      (siftMoves event (activeQueue (t.listForEvent event.eventId))) := by
  have hordered := confirmedFirst_of_unchanged h
  refine sifted_of_prediction (fun answerId => ?_) h ?_
  · cases answerId with
    | none => rw [hordered]
    | some optionId => rw [← filter_activeQueue, ← filter_confirmedFirst, hordered]
  · rw [hordered, siftedMain_activeQueue]

theorem siftMoves_of_unchanged (h : siftChanges (activeQueue (t.listForEvent event.eventId)) = false) :
    siftMoves event (activeQueue (t.listForEvent event.eventId)) = [] := by
  unfold siftMoves
  dsimp only
  rw [mainRoster_activeQueue (keys_listForEvent t event.eventId), sortBy_siftKey ranks_activeQueue,
    confirmedFirst_of_unchanged h, siftedMain_activeQueue]
  simp

end Moves

/-! ## The upkeep of the tables -/

section Upkeep

variable {admits : Input → Prop} {w : World}

theorem registrations_upkeep {c : Call} (hc : c.IsUpkeep) (i : Input) (w : World) :
    (c.perform i w).2.registrations = w.registrations := by
  cases c with
  | registrations c => cases c <;> first | rfl | exact hc.elim
  | outside c => cases c <;> first | rfl | (simp only [Call.perform, OutsideCall.record]; split <;> rfl)
  | _ => rfl

/-- The upkeep of the tables leaves the registrations alone, and of the events what it does not derive. -/
theorem does_upkeep {α : Type} {p : Act α} {Q : α → Prop} (hp : makes anyWorkbook Call.IsUpkeep Q p) :
    does admits
      (fun _ w' => w'.registrations = w.registrations ∧ w'.events.rows.map Event.core = w.events.rows.map Event.core)
      (fun _ w' => w'.registrations = w.registrations ∧ w'.events.rows.map Event.core = w.events.rows.map Event.core)
      p w := by
  refine does_mono (wp_alone_of_makes (R := fun w w' => w'.registrations = w.registrations ∧
      w'.events.rows.map Event.core = w.events.rows.map Event.core) (fun _ => ⟨rfl, rfl⟩) ?_ hp
      (fun _ i _ _ => plausible_perform (respects_anyWorkbook i) fun _ _ => trivial) ?_)
    (fun _ _ h => h.1) fun _ _ h => h
  · intro _ _ _ h h'
    exact ⟨h'.1.trans h.1, h'.2.trans h.2⟩
  · intro op i w hop _
    have hmaintenance : Call.IsMaintenance anyWorkbook op := hop.isMaintenance
    exact ⟨registrations_upkeep hop i w, (maintains_perform hmaintenance i w).events⟩

end Upkeep

/-! ## The worker -/

section Worker

variable {bot : Deployment} {otherServices : OtherServices} {setting : Setting} {s₀ s : Plant}
  {command : OrderedRegistrationCommand} {admits : Input → Prop} {w : World}

/-- The entries of an attempt are stored, beside those of earlier attempts at the command. -/
structure Notes (command : OrderedRegistrationCommand) (event : Event) (moves : List String)
    (stored : Event) : Prop where
  recorded : stored.lastParticipantRemovalOperationId = some command.operationId
  entries : ∀ entry ∈ moves, entry ∈ stored.participantRemovalKeys
  kept : event.lastParticipantRemovalOperationId = some command.operationId →
    ∀ entry ∈ event.participantRemovalKeys, entry ∈ stored.participantRemovalKeys
  question : stored.registrationQuestion = event.registrationQuestion
  playerAmount : stored.playerAmount = event.playerAmount

def Noted (command : OrderedRegistrationCommand) (event : Event) (moves : List String) (w : World) : Prop :=
  ∃ stored, w.events.get event.eventId = some stored ∧ Notes command event moves stored

/-- What an attempt at the sift leaves. -/
structure SiftDone (command : OrderedRegistrationCommand) (event : Event) (w w' : World) : Prop where
  sifted : Sifted event (w.registrations.listForEvent event.eventId) (w'.registrations.listForEvent event.eventId)
    (siftMoves event (activeQueue (w.registrations.listForEvent event.eventId)))
  noted : Noted command event (siftMoves event (activeQueue (w.registrations.listForEvent event.eventId))) w'

/-- A place of the sift is past the end of `datetime`, and nothing is sifted. -/
structure SiftRefused (event : Event) (w w' : World) : Prop where
  outOfRange : ∃ row ∈ w.registrations.waiting event.eventId,
    datetimeMax < Registrations.siftedTime row + w.registrations.siftShift event.eventId
  unchanged : w'.registrations = w.registrations

/-- The entries stay on record where only derived fields of the events change. -/
theorem Noted.of_core {moves : List String} {w' : World} (h : Noted command event moves w)
    (hcores : w'.events.rows.map Event.core = w.events.rows.map Event.core) :
    Noted command event moves w' := by
  obtain ⟨noted, hnoted, hnotes⟩ := h
  have hcore := Events.core_get hcores event.eventId
  rw [hnoted, Option.map_some] at hcore
  obtain ⟨stored, hstored, hcore⟩ := Option.map_eq_some_iff.mp hcore
  have hentries := Event.eq_of_core Event.participantRemovalKeys (fun _ => rfl) hcore
  refine ⟨stored, hstored, ?_, fun entry hentry => ?_, fun hagain entry hentry => ?_, ?_, ?_⟩
  · exact (Event.eq_of_core Event.lastParticipantRemovalOperationId (fun _ => rfl) hcore).trans
      hnotes.recorded
  · rw [hentries]
    exact hnotes.entries entry hentry
  · rw [hentries]
    exact hnotes.kept hagain entry hentry
  · exact (Event.eq_of_core Event.registrationQuestion (fun _ => rfl) hcore).trans hnotes.question
  · exact (Event.eq_of_core Event.playerAmount (fun _ => rfl) hcore).trans hnotes.playerAmount

theorem SiftDone.of_upkeep {w₁ w₂ : World} (h : SiftDone command event w w₁)
    (hrows : w₂.registrations = w₁.registrations)
    (hcores : w₂.events.rows.map Event.core = w₁.events.rows.map Event.core) :
    SiftDone command event w w₂ :=
  ⟨hrows ▸ h.sifted, h.noted.of_core hcores⟩

theorem Events.addedKeys_complete (stored : List String) {moves : List String} {entry : String} (h : entry ∈ moves) :
    entry ∈ stored ++ Events.addedKeys stored moves := by
  by_cases hstored : entry ∈ stored
  · exact List.mem_append_left _ hstored
  · refine List.mem_append_right _ (List.mem_filter.mpr ⟨List.mem_eraseDups.mpr h, ?_⟩)
    exact decide_eq_true hstored

/-- The first attempt at a command starts its own entries. -/
theorem does_setParticipantRemoval {moves : List String} (hevent : w.events.get event.eventId = some event)
    (hagain : event.lastParticipantRemovalOperationId ≠ some command.operationId) :
    does admits (fun _ w' => w'.registrations = w.registrations ∧ Noted command event moves w') (fun _ _ => False)
      (do value (← events (.setParticipantRemoval event.eventId command.operationId moves))) w := by
  refine does_events fun now => ?_
  show does admits _ _
    (value (Events.setParticipantRemoval w.events now event.eventId command.operationId moves).1)
    { w with events := (Events.setParticipantRemoval w.events now event.eventId
        command.operationId moves).2 }
  rw [Events.setParticipantRemoval, Events.existing_of_get hevent]
  refine ⟨rfl, ?_⟩
  unfold Noted
  dsimp only
  rw [Events.get_modify hevent]
  refine ⟨_, rfl, ?_⟩
  rw [if_neg hagain]
  exact ⟨rfl, fun _ h => h, fun h => absurd h hagain, rfl, rfl⟩

theorem does_recordMoves_noted {moves : List String} (hevent : w.events.get event.eventId = some event) :
    does admits (fun _ w' => w'.registrations = w.registrations ∧ Noted command event moves w')
      (fun _ _ => False) (recordMoves command event moves) w := by
  unfold recordMoves
  by_cases hagain : event.lastParticipantRemovalOperationId = some command.operationId
  · rw [if_pos hagain]
    refine does_events fun now => ?_
    show does admits _ _
      (value (Events.addParticipantRemovalKeys w.events now event.eventId command.operationId moves).1)
      { w with events := (Events.addParticipantRemovalKeys w.events now event.eventId
          command.operationId moves).2 }
    rw [Events.addParticipantRemovalKeys, Events.existing_of_get hevent]
    refine ⟨rfl, ?_⟩
    unfold Noted
    dsimp only
    rw [Events.get_modify hevent]
    refine ⟨_, rfl, ?_⟩
    have hkeys (entry : String) (h : entry ∈ moves) := Events.addedKeys_complete event.participantRemovalKeys h
    by_cases hadded : Events.addedKeys event.participantRemovalKeys moves = []
    · rw [if_neg fun h => h.2 hadded]
      rw [hadded, List.append_nil] at hkeys
      exact ⟨hagain, hkeys, fun _ _ h => h, rfl, rfl⟩
    · rw [if_pos ⟨hagain, hadded⟩]
      exact ⟨hagain, hkeys, fun _ _ h => List.mem_append_left _ h, rfl, rfl⟩
  · rw [if_neg hagain]
    exact does_setParticipantRemoval hevent hagain

/-- One attempt at the sift. -/
theorem does_siftWaiting (ht : ∀ row ∈ w.registrations.rows, Settled row)
    (hevent : w.events.get event.eventId = some event) :
    does admits (fun _ w' => SiftDone command event w w')
      (fun failure w' => failure = .fault .overflowError ∧ SiftRefused event w w')
      (siftWaiting command event (activeQueue (w.registrations.listForEvent event.eventId))) w := by
  unfold siftWaiting
  by_cases hchanges : siftChanges (activeQueue (w.registrations.listForEvent event.eventId)) = true
  · rw [if_pos hchanges]
    refine does_seq (does_recordMoves_noted hevent) (fun _ _ h => h.elim) ?_
    rintro _ w₁ ⟨hrows, hnoted⟩
    refine does_registrations fun now => ?_
    show does admits _ _ (value (w₁.registrations.siftWaitingToEnd event.eventId).1)
      { w₁ with registrations := (w₁.registrations.siftWaitingToEnd event.eventId).2 }
    rw [hrows]
    by_cases hfits : ((w.registrations.waiting event.eventId).all fun row =>
        Registrations.siftedTime row + w.registrations.siftShift event.eventId ≤ datetimeMax) = true
    · rw [Registrations.siftWaitingToEnd, if_pos hfits]
      exact ⟨sifted_sifted ht, hnoted⟩
    · rw [Registrations.siftWaitingToEnd, if_neg hfits]
      rw [Bool.not_eq_true, List.all_eq_false] at hfits
      obtain ⟨row, hrow, hover⟩ := hfits
      exact ⟨rfl, ⟨row, hrow, not_le.mp fun hle => hover (decide_eq_true hle)⟩, rfl⟩
  · rw [Bool.not_eq_true] at hchanges
    rw [hchanges, if_neg nofun]
    have hunchanged {w' : World} (hrows : w'.registrations = w.registrations) (hnoted : Noted command event [] w') :
        SiftDone command event w w' := by
      constructor
      · rw [hrows]
        exact sifted_self hchanges
      · rw [siftMoves_of_unchanged hchanges]
        exact hnoted
    by_cases hagain : event.lastParticipantRemovalOperationId = some command.operationId
    · rw [decide_eq_false (not_not.mpr hagain)]
      exact hunchanged rfl ⟨event, hevent, hagain, nofun, fun _ _ h => h, rfl, rfl⟩
    · rw [decide_eq_true hagain]
      exact does_mono (does_setParticipantRemoval hevent hagain) (fun _ _ h => hunchanged h.1 h.2)
        fun _ _ h => h.elim

/-- One attempt at the command. The tables are refreshed when the sift is made, so a table that fails
leaves it made. -/
theorem does_removeWaitingParticipants (bot : Deployment) (ht : ∀ row ∈ w.registrations.rows, Settled row)
    (hevent : w.events.get event.eventId = some event) :
    does admits (fun _ w' => SiftDone command event w w')
      (fun failure w' => SiftDone command event w w' ∨
        failure = .fault .overflowError ∧ SiftRefused event w w')
      (removeWaitingParticipants bot command event) w := by
  unfold removeWaitingParticipants
  refine does_listForEvent ?_
  refine does_seq (does_siftWaiting ht hevent) (fun _ _ h => .inr h) fun _ w₁ hdone => ?_
  refine does_seq (does_upkeep (upkeep_refreshWithRows bot event))
    (fun _ _ h => .inl (hdone.of_upkeep h.1 h.2)) fun _ w₂ h => ?_
  refine does_events fun now => ?_
  exact hdone.of_upkeep h.1 h.2

end Worker

/-! ## In a run -/

section Runs

variable {setting : Setting} {bot : Deployment} {otherServices : OtherServices} {s₀ s : Plant}

end Runs

/-! ## A confirmed player behind the capacity -/

/-- Three players sign up for two places, and the third one confirms. -/
def siftSchedule : List Move :=
  [.publish (signup 1), .publish (signup 2), .publish (signup 3), .publish (confirmation 3)] ++
  Fleet.attempt "game" 30 (goodDay 0) (.finish "game") ++
  Fleet.attempt "game" 30 (goodDay 1) (.finish "game") ++
  Fleet.attempt "game" 30 (goodDay 2) (.finish "game") ++
  Fleet.attempt "confirmation:telegram:3" 40 (goodDay 3) (.finish "confirmation:telegram:3")

def siftPlant : Plant :=
  Fleet.play (queue sampleBot noServices) storage { world := answerWorld } siftSchedule

theorem siftPlant_reached :
    Fleet.Reaches (queue sampleBot noServices) storage anySetting.Allows { world := answerWorld } siftPlant :=
  anySetting_play (by decide +kernel)

example : (siftPlant.world.events.get "game").map (fun event =>
    siftMoves event (activeQueue (siftPlant.world.registrations.listForEvent "game"))) =
      some [siftSnapshotEntry .promoted (sampleKey 3 "game"), siftSnapshotEntry .demoted (sampleKey 2 "game")] := by
  decide +kernel

end LarpBot
