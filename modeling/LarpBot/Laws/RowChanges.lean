import LarpBot.Application.Calls

/-!
# What a registration call does to a row

After a call each stored row is an old row, a changed one (`Changes`) or a new one (`Creates`); that
is `mem_perform`, the one place where the methods of the repository are unfolded. Most changes are
stamps: a method rewrites some fields of a row that its operation has not stamped yet, and stamps
it. What a stamp writes is said once for each method, by `Stamps`.
-/

namespace LarpBot

open Atomic

namespace RegistrationCall

/-- The methods that stamp rows: the event and the keys of the rows, the operation, the rewrite. -/
inductive Stamps : RegistrationCall → EventId → List ParticipantKey → OperationId →
    (Registration → Registration) → Prop
  | updateProfile {e op key a} : Stamps (.updateProfile e op key a) e [key] op a.rewrite
  | confirm {e op key wish replaced replacedKey} :
    Stamps (.confirm e op key wish replaced replacedKey) e [key] op (Registrations.confirmRow wish)
  | confirmLinked {e op keys wish replaced replacedKeys} :
    Stamps (.confirmLinked e op keys wish replaced replacedKeys) e keys op
      (Registrations.confirmRow wish)
  | replaceLinked {e op keys wish replaced replacedKeys} (hother : replaced ≠ e) :
    Stamps (.confirmLinked e op keys wish (some replaced) replacedKeys) replaced replacedKeys op
      Registrations.cancelRow
  | updateCharacterWish {e op key wish} :
    Stamps (.updateCharacterWish e op key wish) e [key] op
      fun row => { row with characterWish := wish }
  | updateLinkedCharacterWish {e op keys wish} :
    Stamps (.updateLinkedCharacterWish e op keys wish) e keys op
      fun row => { row with characterWish := wish }
  | updateCoPlayerWish {e op key wish} :
    Stamps (.updateCoPlayerWish e op key wish) e [key] op fun row => { row with wishPlay := wish }
  | updateLinkedCoPlayerWish {e op keys wish} :
    Stamps (.updateLinkedCoPlayerWish e op keys wish) e keys op
      fun row => { row with wishPlay := wish }
  | cancel {e op key} : Stamps (.cancel e op key) e [key] op Registrations.cancelRow
  | cancelLinked {e op keys} : Stamps (.cancelLinked e op keys) e keys op Registrations.cancelRow

/-- A row after the stamp of an operation. -/
def stamped (op : OperationId) (now : Time) (f : Registration → Registration)
    (row : Registration) : Registration :=
  { f row with lastOperationId := op, updatedAt := now }

/-- The changes that a call may make to a stored row. -/
inductive Changes (now : Time) (t : Registrations) :
    RegistrationCall → Registration → Registration → Prop
  | stamp {c e keys op f row} (hc : Stamps c e keys op f)
    (hrow : Registrations.unstamped e keys op row = true) : Changes now t c row (stamped op now f row)
  | enlist {e a row} (hkey : row.key = (e, a.participantKey))
    (hop : row.lastOperationId ≠ a.operationId) :
    Changes now t (.enlist e a) row
      (a.rewrite now (if isActive row then now else t.enlistTime now e) row)
  | updateAnswer {e op keys answerId row} (hrow : row.eventId = e) (hkey : row.participantKey ∈ keys) :
    Changes now t (.updateAnswer e op keys answerId) row { row with
      answerId := some answerId
      answerQueueAt := some
        (max now ((t.latest e (·.answerId = some answerId)).getD now + microsecond))
      lastOperationId := op
      updatedAt := now }
  | sift {e row} (hrow : row.eventId = e) (hwaiting : row.attendanceStatus = .waiting) :
    Changes now t (.siftWaitingToEnd e) row (Registrations.siftRow (t.siftShift e) row)
  | swap {e a row queueAt} (hrow : row.eventId = e) :
    Changes now t (.swapQueuePositions e a) row
      (Registrations.placeRow a.operationId now queueAt row)

/-- The rows that a call may add. -/
inductive Creates (now : Time) (t : Registrations) : RegistrationCall → Registration → Prop
  | importMissing {rows row} (hrow : row ∈ rows) (hnew : t.find? row.key = none) :
    Creates now t (.importMissing rows) row
  | enlist {e a} (hnew : t.get e a.participantKey = none) :
    Creates now t (.enlist e a) (a.newRow e now (t.enlistTime now e))

/-! ## Stamps -/

variable {c : RegistrationCall} {now : Time} {t : Registrations} {e : EventId}
  {keys : List ParticipantKey} {op : OperationId} {f : Registration → Registration}
  {row row' : Registration}

theorem Stamps.key (hc : Stamps c e keys op f) (row : Registration) : (f row).key = row.key := by
  cases hc <;> rfl

/-- A stamp leaves the place of a row alone. -/
theorem Stamps.queueKey (hc : Stamps c e keys op f) (row : Registration) :
    queueKey (f row) = queueKey row := by
  cases hc <;> rfl

theorem Stamps.answerId (hc : Stamps c e keys op f) (row : Registration) :
    (f row).answerId = row.answerId := by
  cases hc <;> rfl

theorem Stamps.answerQueueAt (hc : Stamps c e keys op f) (row : Registration) :
    (f row).answerQueueAt = row.answerQueueAt := by
  cases hc <;> rfl

theorem Changes.key (h : Changes now t c row row') : row'.key = row.key := by
  cases h with
  | stamp hc => exact hc.key row
  | sift => exact Registrations.key_siftRow _ row
  | _ => rfl

/-! ## The methods -/

/-- Each row of the second table is a row of the first, or one that a call has made of it. -/
def Reworks (now : Time) (t : Registrations) (c : RegistrationCall)
    (rows rows' : Registrations) : Prop :=
  ∀ row' ∈ rows'.rows, row' ∈ rows.rows ∨ ∃ row ∈ rows.rows, Changes now t c row row'

theorem Reworks.refl (rows : Registrations) : Reworks now t c rows rows :=
  fun _ h => .inl h

theorem reworks_map {rows rows' : Registrations} {g : Registration → Registration}
    (hmap : rows'.rows = rows.rows.map g)
    (h : ∀ row ∈ rows.rows, g row = row ∨ Changes now t c row (g row)) :
    Reworks now t c rows rows' := by
  intro row' hrow'
  rw [hmap] at hrow'
  obtain ⟨row, hrow, rfl⟩ := List.mem_map.mp hrow'
  rcases h row hrow with hsame | hchange
  · exact .inl (hsame.symm ▸ hrow)
  · exact .inr ⟨row, hrow, hchange⟩

theorem reworks_filter {rows : Registrations} {p : Registration → Bool} :
    Reworks now t c rows (rows.filter p) :=
  fun _ h => .inl (List.mem_filter.mp h).1

theorem mem_stampMany {rows : Registrations} {hf : ∀ row, (f row).key = row.key}
    (h : row' ∈ (rows.stampMany now e keys op f hf).2.rows) : ∃ row ∈ rows.rows,
      (Registrations.unstamped e keys op row = true ∧ row' = stamped op now f row) ∨
      (Registrations.unstamped e keys op row = false ∧ row' = row) := by
  obtain ⟨row, hrow, hcases⟩ := Table.mem_map_ite h
  exact ⟨row, hrow, hcases.imp_right fun ⟨hstamp, hsame⟩ => ⟨Bool.eq_false_of_not_eq_true hstamp, hsame⟩⟩

theorem reworks_stampMany {rows : Registrations} (hc : Stamps c e keys op f) :
    Reworks now t c rows (rows.stampMany now e keys op f hc.key).2 := by
  intro row' h
  obtain ⟨row, hrow, ⟨hstamp, rfl⟩ | ⟨-, rfl⟩⟩ := mem_stampMany h
  · exact .inr ⟨row, hrow, .stamp hc hstamp⟩
  · exact .inl hrow

theorem reworks_stampOne {rows : Registrations} {key : ParticipantKey}
    (hc : Stamps c e [key] op f) :
    Reworks now t c rows (rows.stampOne now e key op f hc.key).2 := by
  unfold Registrations.stampOne
  split
  · exact .refl rows
  · next stored hstored =>
    split
    · exact .refl rows
    · next hop =>
      intro row' h
      obtain ⟨row, hrow, ⟨hkey, rfl⟩ | ⟨-, rfl⟩⟩ := Table.mem_modify h
      · obtain rfl : row = stored :=
          Table.eq_of_key_eq hrow (Table.mem_of_find? hstored)
            (hkey.trans (Table.key_of_find? hstored).symm)
        obtain ⟨hevent, hkey⟩ := Prod.mk.inj hkey
        refine .inr ⟨row, hrow, .stamp hc ?_⟩
        simp only [Registrations.unstamped, hevent, hkey, hop, List.mem_singleton, decide_true,
          ne_eq, not_false_eq_true, Bool.and_self]
      · exact .inl hrow

theorem reworks_stampExisting {rows : Registrations} {key : ParticipantKey}
    (hc : Stamps c e [key] op f) :
    Reworks now t c rows (rows.stampExisting now e key op f hc.key).2 := by
  unfold Registrations.stampExisting
  split
  · exact .refl rows
  · exact reworks_stampOne hc

/-- A confirmation drops the row that it replaces and stamps the row that it confirms. -/
theorem reworks_confirm {key : ParticipantKey} {wish : String} {replaced : Option EventId}
    {replacedKey : Option ParticipantKey} :
    Reworks now t (.confirm e op key wish replaced replacedKey) t
      (t.confirm now e op key wish replaced replacedKey).2 := by
  unfold Registrations.confirm
  split
  · exact .refl t
  · split
    · exact .refl t
    · split
      · exact .refl t
      · intro row' hrow'
        have hkept {rows : Registrations} (h : rows.rows ⊆ t.rows)
            (hrow' : row' ∈ (rows.stampOne now e key op (Registrations.confirmRow wish)
              fun _ => rfl).2.rows) :
            row' ∈ t.rows ∨ ∃ row ∈ t.rows, Changes now t
              (.confirm e op key wish replaced replacedKey) row row' :=
          (reworks_stampOne .confirm row' hrow').imp (fun hrow => h hrow)
            fun ⟨row, hrow, hchange⟩ => ⟨row, h hrow, hchange⟩
        refine hkept ?_ hrow'
        split
        · exact List.filter_subset_self _
        · exact List.Subset.refl _

/-- The linked confirmation stamps rows of two events, so no row twice. -/
theorem reworks_confirmLinked {wish : String} {replaced : Option EventId}
    {replacedKeys : List ParticipantKey} :
    Reworks now t (.confirmLinked e op keys wish replaced replacedKeys) t
      (t.confirmLinked now e op keys wish replaced replacedKeys).2 := by
  unfold Registrations.confirmLinked
  split
  · exact .refl t
  · split
    · exact .refl t
    · next hother =>
      dsimp only
      cases replaced with
      | none => exact reworks_stampMany .confirmLinked
      | some replaced =>
        have hne : replaced ≠ e := fun h => hother (by rw [h])
        intro row' h
        obtain ⟨between, hbetween, hconfirm⟩ := mem_stampMany h
        obtain ⟨row, hrow, ⟨hreplaced, rfl⟩ | ⟨-, rfl⟩⟩ := mem_stampMany hbetween
        · rcases hconfirm with ⟨hstamp, -⟩ | ⟨-, rfl⟩
          · simp only [Registrations.unstamped, Bool.and_eq_true, decide_eq_true_eq] at hreplaced hstamp
            exact absurd (hreplaced.1.1.symm.trans hstamp.1.1) hne
          · exact .inr ⟨row, hrow, .stamp (.replaceLinked hne) hreplaced⟩
        · rcases hconfirm with ⟨hstamp, rfl⟩ | ⟨-, rfl⟩
          · exact .inr ⟨between, hrow, .stamp .confirmLinked hstamp⟩
          · exact .inl hrow

theorem reworks_enlist {a : Registrations.EnlistArguments} {stored : Registration}
    (hstored : t.get e a.participantKey = some stored) :
    Reworks now t (.enlist e a) t (t.enlist now e a).2 := by
  unfold Registrations.enlist
  rw [hstored]
  dsimp only
  split
  · exact .refl t
  · next hop =>
    intro row' h
    obtain ⟨row, hrow, ⟨hkey, rfl⟩ | ⟨-, rfl⟩⟩ := Table.mem_modify h
    · obtain rfl : row = stored :=
        Table.eq_of_key_eq hrow (Table.mem_of_find? hstored)
          (hkey.trans (Table.key_of_find? hstored).symm)
      exact .inr ⟨row, hrow, .enlist hkey hop⟩
    · exact .inl hrow

theorem reworks_updateAnswer {answerId : String} :
    Reworks now t (.updateAnswer e op keys answerId) t (t.updateAnswer now e op keys answerId).2 := by
  unfold Registrations.updateAnswer
  dsimp only
  split
  · exact .refl t
  · split
    · exact .refl t
    · refine reworks_map rfl fun row _ => ?_
      split
      · next h => exact .inr (.updateAnswer h.1 h.2)
      · exact .inl rfl

theorem reworks_sift : Reworks now t (.siftWaitingToEnd e) t (t.siftWaitingToEnd e).2 := by
  unfold Registrations.siftWaitingToEnd
  split
  · refine reworks_map rfl fun row _ => ?_
    split
    · next h => exact .inr (.sift h.1 h.2)
    · exact .inl rfl
  · exact .refl t

theorem placeRow_placeRow (queueAt queueAt' : Time) (row : Registration) :
    Registrations.placeRow op now queueAt' (Registrations.placeRow op now queueAt row) =
      Registrations.placeRow op now queueAt' row := by
  unfold Registrations.placeRow
  cases row.answerId <;> rfl

theorem reworks_swap {a : Registrations.SwapArguments} :
    Reworks now t (.swapQueuePositions e a) t (t.swapQueuePositions now e a).2 := by
  unfold Registrations.swapQueuePositions
  split
  · split
    · exact .refl t
    · intro row' h
      -- a row that took both places keeps the second one
      obtain ⟨between, hbetween, hsecond⟩ := Table.mem_modify h
      obtain ⟨row, hrow, ⟨hkey, rfl⟩ | ⟨-, rfl⟩⟩ := Table.mem_modify hbetween
      · have hevent : row.eventId = e := (Prod.mk.inj hkey).1
        rcases hsecond with ⟨-, rfl⟩ | ⟨-, rfl⟩
        · refine .inr ⟨row, hrow, ?_⟩
          rw [placeRow_placeRow]
          exact .swap hevent
        · exact .inr ⟨row, hrow, .swap hevent⟩
      · rcases hsecond with ⟨hkey, rfl⟩ | ⟨-, rfl⟩
        · exact .inr ⟨between, hrow, .swap (Prod.mk.inj hkey).1⟩
        · exact .inl hrow
  · exact .refl t

/-- Every row after a call is an old row, a changed one or a new one. -/
theorem mem_perform (h : row' ∈ (c.perform now t).2.rows) :
    row' ∈ t.rows ∨ (∃ row ∈ t.rows, Changes now t c row row') ∨ Creates now t c row' := by
  have hreworks (hr : Reworks now t c t (c.perform now t).2) :
      row' ∈ t.rows ∨ (∃ row ∈ t.rows, Changes now t c row row') ∨ Creates now t c row' :=
    (hr row' h).imp_right .inl
  cases c with
  | get => exact .inl h
  | listForEvent => exact .inl h
  | findByTelegramProfile => exact .inl h
  | importMissing rows =>
    rcases Table.mem_foldl_insertNew h with hold | ⟨hmem, hnew⟩
    · exact .inl hold
    · exact .inr (.inr (.importMissing hmem hnew))
  | enlist e a =>
    cases hstored : t.get e a.participantKey with
    | some stored => exact hreworks (reworks_enlist hstored)
    | none =>
      rw [perform, Registrations.enlist, hstored] at h
      rcases Table.mem_insertNew h with hold | ⟨rfl, -⟩
      · exact .inl hold
      · exact .inr (.inr (.enlist hstored))
  | updateAnswer => exact hreworks reworks_updateAnswer
  | updateProfile => exact hreworks (reworks_stampOne .updateProfile)
  | confirm => exact hreworks reworks_confirm
  | confirmLinked => exact hreworks reworks_confirmLinked
  | updateCharacterWish => exact hreworks (reworks_stampExisting .updateCharacterWish)
  | updateLinkedCharacterWish => exact hreworks (reworks_stampMany .updateLinkedCharacterWish)
  | updateCoPlayerWish => exact hreworks (reworks_stampExisting .updateCoPlayerWish)
  | updateLinkedCoPlayerWish => exact hreworks (reworks_stampMany .updateLinkedCoPlayerWish)
  | cancel => exact hreworks (reworks_stampExisting .cancel)
  | cancelLinked => exact hreworks (reworks_stampMany .cancelLinked)
  | siftWaitingToEnd => exact hreworks reworks_sift
  | swapQueuePositions => exact hreworks reworks_swap
  | remove => exact hreworks reworks_filter
  | deleteForEvent => exact hreworks reworks_filter

end RegistrationCall

end LarpBot
