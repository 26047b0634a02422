import LarpBot.Adapters.YdbRegistrations

/-!
# Two registration repositories

The repositories in memory and on YDB do the same on events without a question, as long as each call
finds the rows that it is to change (`repositories_agree`). The queries of YDB answer `True` when they
have touched nothing. A confirmation deletes the replaced row also where there is nothing to confirm,
and a swap moves one of its rows where the other one is gone (`swap_moves_one`).
-/

namespace LarpBot

open Atomic

namespace Registrations

/-- No row has an answer. -/
def Questionless (rows : Registrations) : Prop :=
  ∀ row ∈ rows.rows, row.answerId = none ∧ row.answerQueueAt = none

/-- The row is there, and the operation has not stamped it. -/
def changes (rows : Registrations) (eventId : EventId) (participantKey : ParticipantKey)
    (operationId : OperationId) : Bool :=
  (rows.get eventId participantKey).any (·.lastOperationId ≠ operationId)

/-- One of the rows is there, and the operation has not stamped it. -/
def changesOne (rows : Registrations) (eventId : EventId) (participantKeys : List ParticipantKey)
    (operationId : OperationId) : Bool :=
  rows.rows.any (unstamped eventId participantKeys operationId)

end Registrations

open Registrations

/-- The replacement of a confirmation is refused. -/
def refusesReplacement (eventId : EventId) (replacedEventId : Option EventId) (absent : Bool) : Prop :=
  replacedEventId.isNone ≠ absent ∨ replacedEventId = some eventId

/-- A call finds the rows that it is to change, and its instants are timestamps of YDB. -/
def RegistrationQuery.Finds : RegistrationQuery → Time → Registrations → Prop
  | of (.importMissing registrations) _, _, _ =>
    ∀ row ∈ registrations, isTimestamp row.createdAt ∧ isTimestamp row.updatedAt
  | of (.enlist eventId a) _, now, rows =>
    isTimestamp now ∧ isTimestamp (rows.enlistTime now eventId) ∧
      ∀ row, rows.get eventId a.participantKey = some row → isTimestamp row.createdAt
  | of (.updateProfile eventId op key _) _, now, rows
  | of (.updateCharacterWish eventId op key _) _, now, rows
  | of (.updateCoPlayerWish eventId op key _) _, now, rows
  | of (.cancel eventId op key) _, now, rows => isTimestamp now ∧ rows.changes eventId key op
  | of (.updateLinkedCharacterWish eventId op keys _) _, now, rows
  | of (.updateLinkedCoPlayerWish eventId op keys _) _, now, rows
  | of (.cancelLinked eventId op keys) _, now, rows => isTimestamp now ∧ rows.changesOne eventId keys op
  | of (.confirm eventId op key _ replaced replacedKey) _, now, rows =>
    refusesReplacement eventId replaced replacedKey.isNone ∨
      isTimestamp now ∧ rows.changes eventId key op
  | of (.confirmLinked eventId op keys _ replaced replacedKeys) _, now, rows =>
    refusesReplacement eventId replaced replacedKeys.isEmpty ∨
      isTimestamp now ∧ (rows.changesOne eventId keys op ∨
        ∃ replacedEvent, replaced = some replacedEvent ∧ rows.changesOne replacedEvent replacedKeys op)
  | of (.siftWaitingToEnd eventId) _, _, rows =>
    isTimestamp (rows.siftShift eventId) ∧ ∀ row ∈ rows.rows,
      row.eventId = eventId ∧ row.attendanceStatus = .waiting →
        isTimestamp (row.createdAt + rows.siftShift eventId)
  | of (.swapQueuePositions eventId a) _, now, rows =>
    (isTimestamp a.promotedCreatedAt ∧ isTimestamp a.demotedCreatedAt ∧ isTimestamp now) ∧
      a.promotedParticipantKey ≠ a.demotedParticipantKey ∧
      rows.changes eventId a.promotedParticipantKey a.operationId ∧
      rows.changes eventId a.demotedParticipantKey a.operationId
  | of (.remove eventId key) _, _, rows => (rows.get eventId key).isSome
  | listPageForEvent _ page, _, _ =>
    (page.after.isSome ∧ page.before.isSome) ∨ page.statuses = some [] ∨
      ∀ cursor ∈ page.after.toList ++ page.before.toList, isTimestamp (ofLex cursor).1
  | _, _, _ => True

/-! ## Single methods -/

namespace YdbRegistrations

variable {rows : Registrations} {now : Time} {eventId : EventId} {participantKey : ParticipantKey}
  {participantKeys : List ParticipantKey} {operationId : OperationId}
  {f : Registration → Registration} {hf : ∀ row, (f row).key = row.key}

theorem holds_isRow (row : Registration) :
    (isRow eventId participantKey row).holds = decide (row.key = (eventId, participantKey)) := by
  simp [isRow, Registration.key, Bool.decide_and]

theorem updateOne_eq (h : rows.changes eventId participantKey operationId) :
    updateOne rows now eventId participantKey operationId f hf =
      rows.modify (eventId, participantKey) (stamp now operationId f) (key_stamp hf) := by
  have hcondition : ∀ row : Registration,
      ((isRow eventId participantKey row).and (isUnstamped operationId row)).holds =
        (decide (row.key = (eventId, participantKey)) && decide (row.lastOperationId ≠ operationId)) := by
    intro row
    rw [Truth.holds_and, holds_isRow, isUnstamped, Truth.holds_is]
  rw [updateOne, Table.update_of_key hcondition]
  exact if_pos h

theorem stampOne_of_changes (h : rows.changes eventId participantKey operationId) :
    rows.stampOne now eventId participantKey operationId f hf =
      (true, updateOne rows now eventId participantKey operationId f hf) := by
  obtain ⟨row, hrow, hstamp⟩ := (Option.any_eq_true _ _).mp h
  rw [updateOne_eq h, stampOne, hrow]
  exact if_neg (of_decide_eq_true hstamp)

theorem stampExisting_of_changes (h : rows.changes eventId participantKey operationId) :
    rows.stampExisting now eventId participantKey operationId f hf =
      (.ok true, updateOne rows now eventId participantKey operationId f hf) := by
  obtain ⟨row, hrow, -⟩ := (Option.any_eq_true _ _).mp h
  rw [stampExisting, hrow, stampOne_of_changes h]

theorem stampMany_eq :
    rows.stampMany now eventId participantKeys operationId f hf =
      (rows.changesOne eventId participantKeys operationId,
        updateMany rows now eventId participantKeys operationId f hf) := by
  have hcondition : ∀ row : Registration,
      ((isNamed eventId participantKeys row).and (isUnstamped operationId row)).holds =
        unstamped eventId participantKeys operationId row := by
    intro row
    simp [isNamed, isUnstamped, unstamped]
  have hrows : (rows.stampMany now eventId participantKeys operationId f hf).2 =
      updateMany rows now eventId participantKeys operationId f hf := by
    ext1
    rw [updateMany, Table.rows_update]
    simp only [hcondition]
    rfl
  rw [← hrows]
  rfl

/-- A row of another event is not among the updated ones. -/
theorem changesOne_updateMany {other : EventId} (hother : other ≠ eventId)
    {otherKeys : List ParticipantKey} :
    (updateMany rows now eventId participantKeys operationId f hf).changesOne other otherKeys
      operationId = rows.changesOne other otherKeys operationId := by
  rw [changesOne, changesOne, updateMany, Table.rows_update, List.any_map]
  congr 1
  funext row
  rw [Function.comp_apply]
  split
  · next htouched =>
    have hnamed : row.eventId = eventId := by
      simp only [isNamed, Truth.holds_and, Truth.holds_is, Bool.and_eq_true, decide_eq_true_eq]
        at htouched
      exact htouched.1.1
    have hstamped : (stamp now operationId f row).eventId = row.eventId :=
      congrArg Prod.fst (key_stamp hf row)
    simp [unstamped, hstamped, hnamed, Ne.symm hother]
  · rfl

/-- A row of another event is not deleted. -/
theorem changes_erase {other : EventId} (hother : other ≠ eventId) {otherKey : ParticipantKey} :
    Registrations.changes (rows.erase (other, otherKey)) eventId participantKey operationId =
      rows.changes eventId participantKey operationId := by
  have hkey : (eventId, participantKey) ≠ (other, otherKey) :=
    fun h => hother (congrArg Prod.fst h).symm
  rw [changes, changes, Registrations.get, Table.find?_erase, if_neg hkey, Registrations.get]

/-- The memory repository answers and writes the same. -/
theorem same_of {α : Type} {result : α × Registrations} {answer : α} {written : Registrations}
    (h : result = (answer, written)) :
    ((.ok answer, written) : Except Fault α × Registrations) = (.ok result.1, result.2) := by
  rw [h]

/-- The answer of a method that raises by itself. -/
theorem raised_of {result : Bool × Registrations} {answer : Bool} {written : Registrations}
    (h : result = (answer, written)) :
    ((.ok result.1, result.2) : Except Fault Bool × Registrations) = (.ok answer, written) := by
  rw [h]

theorem confirm_agrees {characterWish : String} {replacedEventId : Option EventId}
    {replacedParticipantKey : Option ParticipantKey}
    (h : refusesReplacement eventId replacedEventId replacedParticipantKey.isNone ∨
      isTimestamp now ∧ rows.changes eventId participantKey operationId) :
    confirm rows now eventId operationId participantKey characterWish replacedEventId
        replacedParticipantKey =
      (.ok (rows.confirm now eventId operationId participantKey characterWish replacedEventId
          replacedParticipantKey).1,
        (rows.confirm now eventId operationId participantKey characterWish replacedEventId
          replacedParticipantKey).2) := by
  unfold confirm Registrations.confirm
  by_cases htogether : replacedEventId.isNone ≠ replacedParticipantKey.isNone
  · rw [if_pos htogether, if_pos htogether]
  · by_cases hsame : replacedEventId = some eventId
    · rw [if_neg htogether, if_neg htogether, if_pos hsame, if_pos hsame]
    · obtain ⟨hnow, hchanges⟩ := h.resolve_left fun hrefuses =>
        hrefuses.elim htogether hsame
      obtain ⟨row, hrow, -⟩ := (Option.any_eq_true _ _).mp hchanges
      rw [if_neg htogether, if_neg htogether, if_neg hsame, if_neg hsame, hrow,
        ydbQuery_of (by simpa using hnow)]
      cases replacedEventId with
      | none => exact same_of (raised_of (stampOne_of_changes hchanges))
      | some replacedEvent =>
        cases replacedParticipantKey with
        | none => exact same_of (raised_of (stampOne_of_changes hchanges))
        | some replacedKey =>
          have hother : replacedEvent ≠ eventId := fun h => hsame (congrArg some h)
          have hkept : Registrations.changes (rows.erase (replacedEvent, replacedKey)) eventId
              participantKey operationId = true := (changes_erase hother).trans hchanges
          have herase : rows.delete (isRow replacedEvent replacedKey) =
              rows.erase (replacedEvent, replacedKey) := Table.delete_of_key holds_isRow
          dsimp only
          rw [herase]
          exact same_of (raised_of (stampOne_of_changes hkept))

theorem confirmLinked_agrees {characterWish : String} {replacedEventId : Option EventId}
    {replacedParticipantKeys : List ParticipantKey}
    (h : refusesReplacement eventId replacedEventId replacedParticipantKeys.isEmpty ∨
      isTimestamp now ∧ (rows.changesOne eventId participantKeys operationId ∨
        ∃ replacedEvent, replacedEventId = some replacedEvent ∧
          rows.changesOne replacedEvent replacedParticipantKeys operationId)) :
    confirmLinked rows now eventId operationId participantKeys characterWish replacedEventId
        replacedParticipantKeys =
      (.ok (rows.confirmLinked now eventId operationId participantKeys characterWish replacedEventId
          replacedParticipantKeys).1,
        (rows.confirmLinked now eventId operationId participantKeys characterWish replacedEventId
          replacedParticipantKeys).2) := by
  unfold confirmLinked Registrations.confirmLinked
  by_cases htogether : replacedEventId.isNone ≠ replacedParticipantKeys.isEmpty
  · rw [if_pos htogether, if_pos htogether]
  · by_cases hsame : replacedEventId = some eventId
    · rw [if_neg htogether, if_neg htogether, if_pos hsame, if_pos hsame]
    · obtain ⟨hnow, hchanges⟩ := h.resolve_left fun hrefuses =>
        hrefuses.elim htogether hsame
      rw [if_neg htogether, if_neg htogether, if_neg hsame, if_neg hsame,
        ydbQuery_of (by simpa using hnow)]
      cases replacedEventId with
      | none =>
        have hone : rows.changesOne eventId participantKeys operationId = true :=
          hchanges.resolve_right fun ⟨_, hnone, _⟩ => nomatch hnone
        apply same_of
        dsimp only
        rw [Bool.false_or]
        exact raised_of (stampMany_eq.trans (congrArg (·, _) hone))
      | some replacedEvent =>
        have hother : eventId ≠ replacedEvent := fun h => hsame (congrArg some h.symm)
        have hone : (rows.changesOne replacedEvent replacedParticipantKeys operationId ||
            rows.changesOne eventId participantKeys operationId) = true := by
          rw [Bool.or_eq_true]
          rcases hchanges with hone | ⟨_, hsome, hone⟩
          · exact .inr hone
          · obtain rfl := Option.some.inj hsome
            exact .inl hone
        have hreplaced : rows.stampMany now replacedEvent replacedParticipantKeys operationId cancelRow
            (fun _ => rfl) = _ := stampMany_eq
        apply same_of
        dsimp only
        rw [hreplaced]
        generalize hrows : updateMany rows now replacedEvent replacedParticipantKeys operationId
          cancelRow (fun _ => rfl) = replaced
        have hconfirmed : Registrations.stampMany replaced now eventId participantKeys operationId
            (confirmRow characterWish) (fun _ => rfl) = _ := stampMany_eq
        have hkept : replaced.changesOne eventId participantKeys operationId =
            rows.changesOne eventId participantKeys operationId := hrows ▸ changesOne_updateMany hother
        rw [hconfirmed, hkept]
        dsimp only
        rw [hone]

/-! ### Without answers -/

theorem queueTime_eq (hrows : rows.Questionless) {row : Registration} (hrow : row ∈ rows.rows) :
    queueTime row = row.createdAt := by
  rw [queueTime, (hrows row hrow).2]
  rfl

theorem map_queueTime (hrows : rows.Questionless) :
    ((rows.ofEvent eventId).filter isActive).map queueTime =
      ((rows.ofEvent eventId).filter isActive).map Registration.createdAt := by
  apply List.map_congr_left
  intro row hrow
  exact queueTime_eq hrows (List.mem_of_mem_filter (List.mem_of_mem_filter hrow))

theorem enlistTime_eq (hrows : rows.Questionless) :
    enlistTime rows now eventId = rows.enlistTime now eventId := by
  have hlatest : latest rows eventId = rows.latest eventId (fun _ => true) := by
    simp only [latest, Registrations.latest, Bool.and_true, map_queueTime hrows]
  rw [enlistTime, hlatest]
  rfl

theorem enlist_agrees (hrows : rows.Questionless) {a : EnlistArguments} (ha : a.answerId = none)
    (hnow : isTimestamp now) (htime : isTimestamp (rows.enlistTime now eventId))
    (hstored : ∀ row, rows.get eventId a.participantKey = some row → isTimestamp row.createdAt) :
    enlist rows now eventId a = (.ok (rows.enlist now eventId a).1, (rows.enlist now eventId a).2) := by
  have harguments : { a with answerId := none } = a := by rw [← ha]
  rw [enlist, harguments, enlistTime_eq hrows]
  unfold Registrations.enlist
  cases hrow : rows.get eventId a.participantKey with
  | none =>
    have hnew : rows.find? (a.newRow eventId now (rows.enlistTime now eventId)).key = none := hrow
    dsimp only
    rw [save, ydbQuery_of (by simpa [EnlistArguments.newRow] using ⟨htime, hnow⟩),
      Table.insert_eq_insertNew hnew]
  | some row =>
    dsimp only
    by_cases hstamped : row.lastOperationId = a.operationId
    · rw [if_pos hstamped, if_pos hstamped]
    · have hplace : a.rewrite now (rows.enlistTime now eventId) row =
          a.rewrite now (if isActive row then now else rows.enlistTime now eventId) row := by
        unfold EnlistArguments.rewrite
        by_cases hactive : isActive row = true <;> simp [hactive, ha]
      have hcreated : isTimestamp (a.rewrite now
          (if isActive row then now else rows.enlistTime now eventId) row).createdAt = true := by
        unfold EnlistArguments.rewrite
        by_cases hactive : isActive row = true
        · simpa [hactive] using hstored row hrow
        · simpa [hactive] using htime
      have hinsert := Table.insert_eq_modify hrow
        (a.rewrite now (if isActive row then now else rows.enlistTime now eventId)) fun _ => rfl
      rw [if_neg hstamped, if_neg hstamped, save, hplace, ydbQuery_of]
      · exact congrArg (Prod.mk (Except.ok true)) hinsert
      · rw [List.all_cons, hcreated]
        simpa [EnlistArguments.rewrite] using hnow

theorem sift_agrees (hrows : rows.Questionless)
    (hshift : isTimestamp (rows.siftShift eventId))
    (hmoved : ∀ row ∈ rows.rows, row.eventId = eventId ∧ row.attendanceStatus = .waiting →
      isTimestamp (row.createdAt + rows.siftShift eventId)) :
    siftWaitingToEnd rows eventId =
      (.ok (rows.siftWaitingToEnd eventId).1, (rows.siftWaitingToEnd eventId).2) := by
  have hwaiting : ∀ row, (isWaiting eventId row).holds =
      decide (row.eventId = eventId ∧ row.attendanceStatus = .waiting) := by
    intro row
    simp [isWaiting]
  have hsifted : rows.sifted eventId = rows.update (isWaiting eventId)
      (moveRow (rows.siftShift eventId)) (key_moveRow _) := by
    ext1
    rw [Registrations.sifted, Table.rows_mapRows, Table.rows_update]
    apply List.map_congr_left
    intro row hrow
    simp [hwaiting, siftRow, moveRow, placeRow, (hrows row hrow).1]
  have hfits : ((rows.waiting eventId).all fun row =>
      siftedTime row + rows.siftShift eventId ≤ datetimeMax) = true := by
    refine List.all_eq_true.mpr fun row hrow => decide_eq_true ?_
    obtain ⟨hmem, hrow⟩ := List.mem_filter.mp hrow
    have htime := hmoved row hmem (of_decide_eq_true hrow)
    rw [siftedTime, (hrows row hmem).1]
    exact (isTimestamp_iff.mp htime).2.trans (by decide)
  have hmemory : rows.siftWaitingToEnd eventId = (.ok (), rows.sifted eventId) := if_pos hfits
  rw [hmemory]
  have hactive : ∀ row ∈ rows.rows, (isWaiting eventId row).holds = true →
      row.createdAt ∈ ((rows.ofEvent eventId).filter isActive).map Registration.createdAt := by
    intro row hrow hholds
    rw [hwaiting, decide_eq_true_eq] at hholds
    apply List.mem_map_of_mem
    simp [Registrations.ofEvent, hrow, hholds.1, isActive, hholds.2]
  rw [siftWaitingToEnd]
  generalize htimes : ((rows.ofEvent eventId).filter isActive).map Registration.createdAt = times
    at hactive
  dsimp only
  cases hlatest : times.max? with
  | none =>
    rw [List.max?_eq_none_iff.mp hlatest] at hactive
    have huntouched : ∀ row ∈ rows.rows, (isWaiting eventId row).holds = false := by
      intro row hrow
      rw [← Bool.not_eq_true]
      exact fun hholds => absurd (hactive row hrow hholds) List.not_mem_nil
    rw [hsifted, Table.update_of_untouched huntouched]
  | some latest =>
    cases hearliest : times.min? with
    | none =>
      rw [List.min?_eq_none_iff.mp hearliest] at hlatest
      exact nomatch hlatest
    | some earliest =>
      have hsame : latest - earliest + microsecond = rows.siftShift eventId := by
        simp [siftShift, map_queueTime hrows, htimes, hlatest, hearliest]
      dsimp only
      rw [hsame, ydbQuery_of, hsifted]
      rw [List.all_cons, hshift, Bool.true_and, List.all_eq_true]
      intro time htime
      obtain ⟨row, hrow, rfl⟩ := List.mem_map.mp htime
      obtain ⟨hmem, hholds⟩ := List.mem_filter.mp hrow
      rw [hwaiting, decide_eq_true_eq] at hholds
      exact hmoved row hmem hholds

/-- What is written into the row under a key counts only for that row. -/
theorem modify_congr {k : EventId × ParticipantKey} {g : Registration → Registration}
    (hg : ∀ row, (g row).key = row.key) (h : ∀ row ∈ rows.rows, f row = g row) :
    rows.modify k f hf = rows.modify k g hg := by
  ext1
  rw [Table.rows_modify, Table.rows_modify]
  apply List.map_congr_left
  intro row hrow
  rw [h row hrow]

theorem key_place {queueAt : Time} (row : Registration) :
    (Registrations.placeRow operationId now queueAt row).key = row.key := rfl

theorem swap_agrees (hrows : rows.Questionless) {a : SwapArguments}
    (htimes : isTimestamp a.promotedCreatedAt ∧ isTimestamp a.demotedCreatedAt ∧ isTimestamp now)
    (hother : a.promotedParticipantKey ≠ a.demotedParticipantKey)
    (hpromoted : rows.changes eventId a.promotedParticipantKey a.operationId)
    (hdemoted : rows.changes eventId a.demotedParticipantKey a.operationId) :
    swapQueuePositions rows now eventId a =
      (.ok (rows.swapQueuePositions now eventId a).1, (rows.swapQueuePositions now eventId a).2) := by
  obtain ⟨promoted, hp, hpstamp⟩ := (Option.any_eq_true _ _).mp hpromoted
  obtain ⟨demoted, hd, -⟩ := (Option.any_eq_true _ _).mp hdemoted
  have hstamp : ¬ (promoted.lastOperationId = a.operationId ∧ demoted.lastOperationId = a.operationId) :=
    fun h => of_decide_eq_true hpstamp h.1
  have hmemory : rows.swapQueuePositions now eventId a = (true,
      (rows.modify (eventId, a.promotedParticipantKey)
        (Registrations.placeRow a.operationId now a.demotedCreatedAt) key_place).modify
          (eventId, a.demotedParticipantKey)
          (Registrations.placeRow a.operationId now a.promotedCreatedAt) key_place) := by
    unfold Registrations.swapQueuePositions
    rw [hp, hd]
    exact if_neg hstamp
  have hplace {rows : Registrations} (hrows : rows.Questionless) (queueAt : Time) (row : Registration)
      (hrow : row ∈ rows.rows) : stamp now a.operationId (placeRow queueAt) row =
        Registrations.placeRow a.operationId now queueAt row := by
    simp [stamp, placeRow, Registrations.placeRow, (hrows row hrow).1, (hrows row hrow).2]
  have hfirst : updateOne rows now eventId a.promotedParticipantKey a.operationId
      (placeRow a.demotedCreatedAt) (fun _ => rfl) =
        rows.modify (eventId, a.promotedParticipantKey)
          (Registrations.placeRow a.operationId now a.demotedCreatedAt) key_place :=
    (updateOne_eq hpromoted).trans (modify_congr key_place (hplace hrows _))
  have hchanged : Registrations.changes (rows.modify (eventId, a.promotedParticipantKey)
      (Registrations.placeRow a.operationId now a.demotedCreatedAt) key_place) eventId
        a.demotedParticipantKey a.operationId = true := by
    have hkey : (eventId, a.demotedParticipantKey) ≠ (eventId, a.promotedParticipantKey) :=
      fun h => hother (congrArg Prod.snd h).symm
    rw [changes, Registrations.get, Table.find?_modify_of_ne _ hkey]
    exact hdemoted
  have hkept : Registrations.Questionless (rows.modify (eventId, a.promotedParticipantKey)
      (Registrations.placeRow a.operationId now a.demotedCreatedAt) key_place) := by
    intro row hrow
    obtain ⟨old, hold, ⟨-, rfl⟩ | ⟨-, rfl⟩⟩ := Table.mem_modify hrow
    · simp [Registrations.placeRow, (hrows old hold).1, (hrows old hold).2]
    · exact hrows row hold
  rw [hmemory, swapQueuePositions, hfirst, ydbQuery_of (by simpa using htimes)]
  exact congrArg (Prod.mk (Except.ok true)) ((updateOne_eq hchanged).trans (modify_congr key_place (hplace hkept _)))

theorem importMissing_agrees {registrations : List Registration}
    (hplain : ∀ row ∈ registrations, row.answerId = none ∧ row.answerQueueAt = none)
    (htimes : ∀ row ∈ registrations, isTimestamp row.createdAt ∧ isTimestamp row.updatedAt) :
    importMissing registrations rows = (.ok (), rows.importMissing registrations) := by
  induction registrations generalizing rows with
  | nil => rfl
  | cons row registrations ih =>
    have hrest := fun rows => @ih rows (fun r hr => hplain r (List.mem_cons_of_mem row hr))
      fun r hr => htimes r (List.mem_cons_of_mem row hr)
    obtain ⟨hanswer, hqueue⟩ := hplain row List.mem_cons_self
    have hsame : { row with answerId := none, answerQueueAt := none } = row := by
      rw [← hqueue, ← hanswer]
    rw [importMissing, Registrations.importMissing, List.foldl_cons]
    cases hfound : rows.find? row.key with
    | some stored =>
      rw [Table.rows_insertNew_of_some hfound]
      exact (if_pos rfl).trans (hrest rows)
    | none =>
      have htime : [row.createdAt, row.updatedAt].all isTimestamp = true := by
        simpa using htimes row List.mem_cons_self
      rw [hsame, if_neg (by simp), if_pos htime]
      exact hrest _

theorem ranks_listKey : Ranks listKey (rows.ofEvent eventId) := by
  intro row hrow row' hrow' hkey
  obtain ⟨hmem, hevent⟩ := List.mem_filter.mp hrow
  obtain ⟨hmem', hevent'⟩ := List.mem_filter.mp hrow'
  have hparticipant : row.participantKey = row'.participantKey :=
    congrArg (fun key => (ofLex key).2) hkey
  apply Table.eq_of_key_eq hmem hmem'
  rw [Registration.key, Registration.key, hparticipant, of_decide_eq_true hevent,
    of_decide_eq_true hevent']

/-- To read backwards from a cursor is to take the last ones before it. -/
theorem reverse_take_reverse {α : Type} (l : List α) (n : Nat) :
    (l.reverse.take n).reverse = (l.drop (l.length - n)).take n := by
  have hlength : (l.drop (l.length - n)).length ≤ n := by
    rw [List.length_drop]
    omega
  rw [List.take_reverse, List.reverse_reverse, List.take_of_length_le hlength]

theorem listPageForEvent_agrees {page : RegistrationPage}
    (h : (page.after.isSome ∧ page.before.isSome) ∨ page.statuses = some [] ∨
      ∀ cursor ∈ page.after.toList ++ page.before.toList, isTimestamp (ofLex cursor).1) :
    listPageForEvent rows eventId page = .ok (rows.listPageForEvent eventId page) := by
  unfold listPageForEvent Registrations.listPageForEvent
  by_cases hboth : page.after.isSome ∧ page.before.isSome
  · rw [if_pos hboth, if_pos hboth]
  · rw [if_neg hboth, if_neg hboth]
    by_cases hnone : page.statuses = some []
    · rw [if_pos hnone, hnone]
      cases page.before <;> simp
    · have htimes := (h.resolve_left hboth).resolve_left hnone
      have hsorted (p : Registration → Bool) : sortBy listKey ((rows.ofEvent eventId).filter p) =
          (sortBy listKey (rows.ofEvent eventId)).filter p := (filter_sortBy ranks_listKey p).symm
      rw [if_neg hnone]
      dsimp only
      rw [ydbQuery_of]
      · simp only [hsorted, List.filter_filter]
        cases hbefore : page.before with
        | none =>
          simp [Bool.and_comm]
        | some before =>
          simp [reverse_take_reverse, Bool.and_comm]
      · rw [List.all_map, List.all_eq_true]
        exact htimes

theorem delete_eq_filter {p : Registration → Truth} {q : Registration → Prop} [DecidablePred q]
    (h : ∀ row, (p row).holds = decide (q row)) :
    rows.delete p = rows.filter fun row => ¬ q row := by
  ext1
  show rows.rows.filter _ = rows.rows.filter _
  apply List.filter_congr
  intro row _
  simp [h]

theorem removeMany_agrees :
    removeMany rows eventId participantKeys = (.ok (), rows.removeMany eventId participantKeys) := by
  unfold removeMany Registrations.removeMany
  by_cases hnone : participantKeys = []
  · have hkept : Table.filter rows (fun row =>
        ¬ (row.eventId = eventId ∧ row.participantKey ∈ participantKeys)) = rows := by
      ext1
      exact List.filter_eq_self.mpr fun row _ => by simp [hnone]
    rw [if_pos hnone, hkept]
  · have hnamed : ∀ row, (isNamed eventId participantKeys row).holds =
        decide (row.eventId = eventId ∧ row.participantKey ∈ participantKeys) := by
      intro row
      simp [isNamed]
    rw [if_neg hnone, delete_eq_filter hnamed]

/-- A query whose only instant is the time it is made. -/
theorem ydbQuery_now {α W : Type} (h : isTimestamp now) (store : W) (answer : α) (written : W) :
    ydbQuery [now] store answer written = (.ok answer, written) :=
  ydbQuery_of (by simpa using h) store answer written

theorem updateOne_agrees (hnow : isTimestamp now)
    (h : rows.changes eventId participantKey operationId) :
    ydbQuery [now] rows true (updateOne rows now eventId participantKey operationId f hf) =
      (.ok (rows.stampOne now eventId participantKey operationId f hf).1,
        (rows.stampOne now eventId participantKey operationId f hf).2) :=
  (ydbQuery_now hnow _ _ _).trans (same_of (stampOne_of_changes h))

theorem updateExisting_agrees (hnow : isTimestamp now)
    (h : rows.changes eventId participantKey operationId) :
    ydbQuery [now] rows (.ok true) (updateOne rows now eventId participantKey operationId f hf) =
      (.ok (rows.stampExisting now eventId participantKey operationId f hf).1,
        (rows.stampExisting now eventId participantKey operationId f hf).2) :=
  (ydbQuery_now hnow _ _ _).trans (same_of (stampExisting_of_changes h))

theorem updateMany_agrees (hnow : isTimestamp now)
    (h : rows.changesOne eventId participantKeys operationId) :
    ydbQuery [now] rows true (updateMany rows now eventId participantKeys operationId f hf) =
      (.ok (rows.stampMany now eventId participantKeys operationId f hf).1,
        (rows.stampMany now eventId participantKeys operationId f hf).2) :=
  (ydbQuery_now hnow _ _ _).trans (same_of (stampMany_eq.trans (congrArg (·, _) h)))

end YdbRegistrations

/-! ## Rows without answers -/

namespace Registrations

variable {rows : Registrations} {now : Time} {eventId : EventId} {participantKey : ParticipantKey}
  {participantKeys : List ParticipantKey} {operationId : OperationId}
  {f : Registration → Registration} {hf : ∀ row, (f row).key = row.key}

/-- A change of a row that leaves its answer alone. -/
def LeavesAnswer (f : Registration → Registration) : Prop :=
  ∀ row, (f row).answerId = row.answerId ∧ (f row).answerQueueAt = row.answerQueueAt

theorem Questionless.filter (hrows : rows.Questionless) (p : Registration → Bool) :
    Questionless (rows.filter p) :=
  fun row hrow => hrows row (List.mem_of_mem_filter hrow)

/-- What each row becomes, a rewritten table has. -/
theorem Questionless.modify (hrows : rows.Questionless) {k : EventId × ParticipantKey}
    (hf : ∀ row, (f row).key = row.key := by intro _; rfl)
    (h : ∀ row, row.answerId = none ∧ row.answerQueueAt = none →
      (f row).answerId = none ∧ (f row).answerQueueAt = none) :
    Questionless (rows.modify k f hf) := by
  intro row hrow
  obtain ⟨old, hold, ⟨-, rfl⟩ | ⟨-, rfl⟩⟩ := Table.mem_modify hrow
  · exact h old (hrows old hold)
  · exact hrows row hold

theorem Questionless.insertNew (hrows : rows.Questionless) {row : Registration}
    (h : row.answerId = none ∧ row.answerQueueAt = none) : Questionless (rows.insertNew row) := by
  intro row' hrow'
  rcases Table.mem_insertNew hrow' with hold | ⟨rfl, -⟩
  · exact hrows row' hold
  · exact h

theorem Questionless.stampOne (hrows : rows.Questionless)
    (hf : ∀ row, (f row).key = row.key := by intro _; rfl)
    (hanswer : LeavesAnswer f := by intro _; exact ⟨rfl, rfl⟩) :
    Questionless (rows.stampOne now eventId participantKey operationId f hf).2 := by
  unfold Registrations.stampOne
  split
  · exact hrows
  · split
    · exact hrows
    · intro row hrow
      obtain ⟨old, hold, ⟨-, rfl⟩ | ⟨-, rfl⟩⟩ := Table.mem_modify hrow
      · exact ⟨(hanswer old).1.trans (hrows old hold).1, (hanswer old).2.trans (hrows old hold).2⟩
      · exact hrows row hold

theorem Questionless.stampExisting (hrows : rows.Questionless)
    (hf : ∀ row, (f row).key = row.key := by intro _; rfl)
    (hanswer : LeavesAnswer f := by intro _; exact ⟨rfl, rfl⟩) :
    Questionless (rows.stampExisting now eventId participantKey operationId f hf).2 := by
  unfold Registrations.stampExisting
  split
  · exact hrows
  · exact hrows.stampOne hf hanswer

theorem Questionless.stampMany (hrows : rows.Questionless)
    (hf : ∀ row, (f row).key = row.key := by intro _; rfl)
    (hanswer : LeavesAnswer f := by intro _; exact ⟨rfl, rfl⟩) :
    Questionless (rows.stampMany now eventId participantKeys operationId f hf).2 := by
  intro row hrow
  obtain ⟨old, hold, ⟨-, rfl⟩ | ⟨-, rfl⟩⟩ := Table.mem_map_ite hrow
  · exact ⟨(hanswer old).1.trans (hrows old hold).1, (hanswer old).2.trans (hrows old hold).2⟩
  · exact hrows row hold

theorem Questionless.importMissing (hrows : rows.Questionless) {registrations : List Registration}
    (h : ∀ row ∈ registrations, row.answerId = none ∧ row.answerQueueAt = none) :
    Questionless (rows.importMissing registrations) := by
  intro row hrow
  rcases Table.mem_foldl_insertNew hrow with hold | ⟨hnew, -⟩
  · exact hrows row hold
  · exact h row hnew

theorem Questionless.enlist (hrows : rows.Questionless) {a : EnlistArguments}
    (ha : a.answerId = none) : Questionless (rows.enlist now eventId a).2 := by
  unfold Registrations.enlist
  split
  · exact hrows.insertNew (by simp [EnlistArguments.newRow, ha])
  · split
    · exact hrows
    · intro row hrow
      obtain ⟨old, hold, ⟨-, rfl⟩ | ⟨-, rfl⟩⟩ := Table.mem_modify hrow
      · simp [EnlistArguments.rewrite, ha]
      · exact hrows row hold

theorem Questionless.confirm (hrows : rows.Questionless) {characterWish : String}
    {replaced : Option EventId} {replacedKey : Option ParticipantKey} : Questionless
      (rows.confirm now eventId operationId participantKey characterWish replaced replacedKey).2 := by
  unfold Registrations.confirm
  split
  · exact hrows
  · split
    · exact hrows
    · split
      · exact hrows
      · refine Questionless.stampOne ?_
        split
        · exact hrows.filter _
        · exact hrows

theorem Questionless.confirmLinked (hrows : rows.Questionless) {characterWish : String}
    {replaced : Option EventId} {replacedKeys : List ParticipantKey} : Questionless
      (rows.confirmLinked now eventId operationId participantKeys characterWish replaced
        replacedKeys).2 := by
  unfold Registrations.confirmLinked
  split
  · exact hrows
  · split
    · exact hrows
    · refine Questionless.stampMany ?_
      split
      · exact hrows
      · exact hrows.stampMany

theorem Questionless.siftWaitingToEnd (hrows : rows.Questionless) :
    Questionless (rows.siftWaitingToEnd eventId).2 := by
  unfold Registrations.siftWaitingToEnd
  split
  · intro row hrow
    obtain ⟨old, hold, ⟨-, rfl⟩ | ⟨-, rfl⟩⟩ := Table.mem_map_ite hrow
    · simp [siftRow, hrows old hold]
    · exact hrows row hold
  · exact hrows

theorem Questionless.swapQueuePositions (hrows : rows.Questionless) {a : SwapArguments} :
    Questionless (rows.swapQueuePositions now eventId a).2 := by
  unfold Registrations.swapQueuePositions
  split
  · split
    · exact hrows
    · refine Questionless.modify (hrows.modify (by intro _; rfl) fun row hrow => ?_) (by intro _; rfl)
        fun row hrow => ?_
      · simp [placeRow, hrow]
      · simp [placeRow, hrow]
  · exact hrows

end Registrations

/-! ## All methods -/

/-- On events without a question no row gets an answer. -/
theorem RegistrationQuery.questionless_memory {m : RegistrationQuery} {now : Time}
    {rows : Registrations} (hrows : rows.Questionless) :
    Registrations.Questionless (memory m now rows).2 := by
  cases m with
  | listPageForEvent eventId page => exact hrows
  | removeMany eventId keys => exact hrows.filter _
  | of c hc =>
    cases c with
    | get eventId key => exact hrows
    | listForEvent eventId => exact hrows
    | findByTelegramProfile profile => exact hrows
    | importMissing registrations => exact hrows.importMissing hc
    | enlist eventId a => exact hrows.enlist hc
    | updateAnswer eventId op keys answerId => exact hc.elim
    | updateProfile eventId op key a => exact hrows.stampOne
    | confirm eventId op key wish replaced replacedKey => exact hrows.confirm
    | confirmLinked eventId op keys wish replaced replacedKeys => exact hrows.confirmLinked
    | updateCharacterWish eventId op key wish => exact hrows.stampExisting
    | updateLinkedCharacterWish eventId op keys wish => exact hrows.stampMany
    | updateCoPlayerWish eventId op key wish => exact hrows.stampExisting
    | updateLinkedCoPlayerWish eventId op keys wish => exact hrows.stampMany
    | cancel eventId op key => exact hrows.stampExisting
    | cancelLinked eventId op keys => exact hrows.stampMany
    | siftWaitingToEnd eventId => exact hrows.siftWaitingToEnd
    | swapQueuePositions eventId a => exact hrows.swapQueuePositions
    | remove eventId key => exact hrows.filter _
    | deleteForEvent eventId => exact hrows.filter _

/-- A call that finds its rows does the same in both repositories. -/
theorem RegistrationQuery.ydb_agrees {m : RegistrationQuery} {now : Time} {rows : Registrations}
    (hrows : rows.Questionless) (h : m.Finds now rows) : ydb m now rows = memory m now rows := by
  cases m with
  | listPageForEvent eventId page => exact congrArg (·, rows) (YdbRegistrations.listPageForEvent_agrees h)
  | removeMany eventId keys => exact YdbRegistrations.removeMany_agrees
  | of c hc =>
    cases c with
    | get eventId key => rfl
    | listForEvent eventId => rfl
    | findByTelegramProfile profile => rfl
    | importMissing registrations => exact YdbRegistrations.importMissing_agrees hc h
    | enlist eventId a => exact YdbRegistrations.enlist_agrees hrows hc h.1 h.2.1 h.2.2
    | updateAnswer eventId op keys answerId => exact hc.elim
    | updateProfile eventId op key a => exact YdbRegistrations.updateOne_agrees h.1 h.2
    | confirm eventId op key wish replaced replacedKey => exact YdbRegistrations.confirm_agrees h
    | confirmLinked eventId op keys wish replaced replacedKeys =>
      exact YdbRegistrations.confirmLinked_agrees h
    | updateCharacterWish eventId op key wish => exact YdbRegistrations.updateExisting_agrees h.1 h.2
    | updateLinkedCharacterWish eventId op keys wish => exact YdbRegistrations.updateMany_agrees h.1 h.2
    | updateCoPlayerWish eventId op key wish => exact YdbRegistrations.updateExisting_agrees h.1 h.2
    | updateLinkedCoPlayerWish eventId op keys wish => exact YdbRegistrations.updateMany_agrees h.1 h.2
    | cancel eventId op key => exact YdbRegistrations.updateExisting_agrees h.1 h.2
    | cancelLinked eventId op keys => exact YdbRegistrations.updateMany_agrees h.1 h.2
    | siftWaitingToEnd eventId => exact YdbRegistrations.sift_agrees hrows h.1 h.2
    | swapQueuePositions eventId a =>
      exact YdbRegistrations.swap_agrees hrows h.1 h.2.1 h.2.2.1 h.2.2.2
    | remove eventId key =>
      have hdeleted : rows.delete (YdbRegistrations.isRow eventId key) = rows.erase (eventId, key) :=
        Table.delete_of_key YdbRegistrations.holds_isRow
      exact (congrArg (Prod.mk (Except.ok true)) hdeleted).trans
        (YdbRegistrations.same_of (congrArg (·, _) h))
    | deleteForEvent eventId =>
      exact congrArg (Prod.mk (Except.ok ()))
        (YdbRegistrations.delete_eq_filter fun row => Truth.holds_is _)

/-- Both repositories answer every sequence of calls alike, and hold the same rows after it, if each
call finds the rows that it is to change. -/
theorem repositories_agree {calls : List (RegistrationQuery × Time)} {rows : Registrations}
    (hrows : rows.Questionless)
    (hcalls : CallsMeet RegistrationQuery.memory RegistrationQuery.Finds calls rows) :
    callAll RegistrationQuery.ydb calls rows = callAll RegistrationQuery.memory calls rows := by
  have hstep : ∀ (m : RegistrationQuery) (now : Time) (rows : Registrations), rows.Questionless →
      m.Finds now rows → RegistrationQuery.ydb m now rows = RegistrationQuery.memory m now rows ∧
        Registrations.Questionless (RegistrationQuery.memory m now rows).2 :=
    fun _ _ _ hrows hfinds => ⟨RegistrationQuery.ydb_agrees hrows hfinds,
      RegistrationQuery.questionless_memory hrows⟩
  exact callAll_agree hstep hrows hcalls

/-- An event with a confirmed row and a waiting one. -/
def twoRows : Registrations where
  rows := [
    { eventId := "game", participantKey := "anna", displayName := "Anna", wishPlay := "-"
      attendanceStatus := .confirmed, lastOperationId := "first", createdAt := 20, updatedAt := 20 },
    { eventId := "game", participantKey := "boris", displayName := "Boris", wishPlay := "-"
      lastOperationId := "second", createdAt := 10, updatedAt := 10 }]
  nodup := by decide

/-- Anna takes the place of Boris, and Boris cancels. -/
def swapAndCancel : List (RegistrationQuery × Time) :=
  [(.of (.swapQueuePositions "game" ⟨"third", "anna", 20, "boris", 10⟩) trivial, 30),
    (.of (.cancel "game" "fourth" "boris") trivial, 40),
    (.of (.listForEvent "game") trivial, 50)]

theorem swapAndCancel_agree : callAll RegistrationQuery.ydb swapAndCancel twoRows =
    callAll RegistrationQuery.memory swapAndCancel twoRows :=
  repositories_agree (by unfold Registrations.Questionless; decide)
    ⟨⟨⟨by decide, by decide, by decide⟩, by decide, by decide +kernel, by decide +kernel⟩,
      ⟨by decide, by decide +kernel⟩, trivial, trivial⟩

/-- Boris is gone when Anna is to take his place: she keeps hers in the one repository and takes his
in the other one. -/
theorem swap_moves_one : ∃ (calls : List (RegistrationQuery × Time)) (rows : Registrations),
    rows.Questionless ∧
      (callAll RegistrationQuery.ydb calls rows).2 ≠ (callAll RegistrationQuery.memory calls rows).2 := by
  refine ⟨[(.of (.remove "game" "boris") trivial, 25),
    (.of (.swapQueuePositions "game" ⟨"third", "anna", 20, "boris", 10⟩) trivial, 30)], twoRows, ?_, ?_⟩
  · unfold Registrations.Questionless
    decide
  · decide +kernel

end LarpBot
