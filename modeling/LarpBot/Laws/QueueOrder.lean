import LarpBot.Laws.RowChanges
import LarpBot.Laws.Runs

/-!
# The order of the queues

A signup and a change of answer go behind every active row that is there, whatever the clock says,
and apart from the sift and the swap of the masters no other call moves a row in its queue. There is
one exception, and `inOrder_iff` says when it shows: a signup that reaches an active row under a new
operation id gives the row the instant of the clock as its place in the queue of its answer.

The service refuses the signup of a player who is already signed up, but it looks at the row in one
call and writes in another. A confirmation of the same player runs in another lane, and its stamp
may fall between the two: then the retry of a signup meets an active row that no longer carries its
operation id (`overtaking_reached`).
-/

namespace LarpBot

open Atomic

/-- A row and what a call has made of it, if it stays active and in its queue. -/
structure Stays (u u' : Registration) : Prop where
  key : u'.key = u.key
  before : isActive u
  after : isActive u'
  answer : u'.answerId = u.answerId

/-- The rows that stay active in one queue keep their order. -/
def KeepsOrder (t t' : Registrations) : Prop :=
  ∀ u ∈ t.rows, ∀ v ∈ t.rows, u.eventId = v.eventId → u.answerId = v.answerId →
    ∀ u' ∈ t'.rows, ∀ v' ∈ t'.rows, Stays u u' → Stays v v' →
      (queueKey u' < queueKey v' ↔ queueKey u < queueKey v)

/-- A row stands behind the active rows of its event that pass a test. -/
def Registrations.Behind (t : Registrations) (row : Registration) (p : Registration → Prop) :
    Prop :=
  ∀ u ∈ t.ofEvent row.eventId, isActive u → p u → queueKey u < queueKey row

/-- A signup that found no active row of the player. -/
def Registrations.AdmitsNew (t : Registrations) (e : EventId) (key : ParticipantKey) : Prop :=
  ∀ row, t.get e key = some row → isActive row = false

/-- What a call owes to the queues: a signup and a change of answer go to the back, the sift and the
swap may do what they are for, and everything else keeps the order. -/
def RegistrationCall.InOrder (t t' : Registrations) : (c : RegistrationCall) → c.Ans → Prop
  | .enlist e a, changed =>
    (changed = true → t.AdmitsNew e a.participantKey →
      ∃ row, t'.get e a.participantKey = some row ∧ isActive row ∧
        t'.Behind row fun u => u.participantKey ≠ a.participantKey) ∧
    (changed = false ∨ ¬ t.AdmitsNew e a.participantKey → KeepsOrder t t')
  | .updateAnswer e _ keys answerId, changed =>
    (changed = true → ∀ row ∈ t'.named e keys, row.answerId = some answerId ∧
      t'.Behind row fun u => u.answerId = some answerId ∧ u.participantKey ∉ keys) ∧
    (changed = false → KeepsOrder t t')
  | .siftWaitingToEnd _, _ | .swapQueuePositions _ _, _ => True
  | _, _ => KeepsOrder t t'

/-- A signup that reaches an active row under another operation id, at a clock that takes the row
across the place of another active row with the same answer. -/
def RegistrationCall.Overtakes (now : Time) (t : Registrations) : RegistrationCall → Prop
  | .enlist e a => ∃ row ∈ t.rows, row.key = (e, a.participantKey) ∧ isActive row ∧
      row.lastOperationId ≠ a.operationId ∧ row.answerId.isSome ∧ row.answerId = a.answerId ∧
      ∃ u ∈ t.ofEvent e, isActive u ∧ u.answerId = a.answerId ∧
        u.participantKey ≠ a.participantKey ∧
        ¬ (queueKey u < toLex (now, a.participantKey) ↔ queueKey u < queueKey row)
  | _ => False

/-- A row without an answer has no instant of an answer either. -/
def Settled (row : Registration) : Prop :=
  row.answerId = none → row.answerQueueAt = none

variable {c : RegistrationCall} {now : Time} {t t' : Registrations} {e : EventId}
  {u u' : Registration}

/-! ## Rows across a call -/

/-- A stored row whose key is still there is the same row or has been changed by the call. -/
theorem changes_of_key (hu : u ∈ t.rows) (hu' : u' ∈ (c.perform now t).2.rows)
    (hkey : u'.key = u.key) : u' = u ∨ c.Changes now t u u' := by
  rcases RegistrationCall.mem_perform hu' with hold | ⟨row, hrow, hchange⟩ | hnew
  · exact .inl (Table.eq_of_key_eq hold hu hkey)
  · obtain rfl : row = u := Table.eq_of_key_eq hrow hu (hchange.key.symm.trans hkey)
    exact .inr hchange
  · have hmissing : t.find? u'.key = none := by
      cases hnew with
      | importMissing _ hnew => exact hnew
      | enlist hnew => exact hnew
    rw [hkey, Table.find?_key hu] at hmissing
    exact nomatch hmissing

theorem mem_ofEvent : u ∈ t.ofEvent e ↔ u ∈ t.rows ∧ u.eventId = e := by
  simp [Registrations.ofEvent]

/-- Rows of one event with different keys do not tie. -/
theorem queueKey_ne {u v : Registration} (h : u.participantKey ≠ v.participantKey) :
    queueKey u ≠ queueKey v :=
  fun heq => h (congrArg (fun k => (ofLex k).2) heq)

/-- A row moves only if it is the row that a call is about. -/
theorem keepsOrder_of_places
    (h : ∀ u ∈ t.rows, ∀ u' ∈ t'.rows, Stays u u' → queueKey u' = queueKey u) :
    KeepsOrder t t' := by
  intro u hu v hv _ _ u' hu' v' hv' hstays hstays'
  rw [h u hu u' hu' hstays, h v hv v' hv' hstays']

/-! ## The back of a queue -/

theorem queueTime_le_latest {p : Registration → Bool} (hu : u ∈ t.ofEvent e)
    (hactive : isActive u) (hp : p u) : ∃ latest, t.latest e p = some latest ∧ queueTime u ≤ latest := by
  have hmem : queueTime u ∈ ((t.ofEvent e).filter fun row => isActive row && p row).map queueTime :=
    List.mem_map_of_mem (List.mem_filter.mpr ⟨hu, by rw [hactive, hp, Bool.and_self]⟩)
  cases h : t.latest e p with
  | none =>
    rw [List.max?_eq_none_iff.mp h] at hmem
    exact absurd hmem List.not_mem_nil
  | some latest => exact ⟨latest, rfl, (List.max?_le_iff h).mp le_rfl _ hmem⟩

theorem queueTime_lt_enlistTime (hu : u ∈ t.ofEvent e) (hactive : isActive u) :
    queueTime u < t.enlistTime now e := by
  obtain ⟨latest, hlatest, hle⟩ := queueTime_le_latest (p := fun _ => true) hu hactive rfl
  rw [Registrations.enlistTime, hlatest]
  exact lt_of_lt_of_le (Int.lt_add_one_of_le hle) (le_max_right _ _)

theorem queueKey_lt_of_queueTime {u v : Registration} (h : queueTime u < queueTime v) :
    queueKey u < queueKey v :=
  Prod.Lex.toLex_lt_toLex.mpr (.inl h)

/-! ## Each call -/

/-- A new or returning row goes behind all active rows of its event. -/
theorem enlist_behind {a : Registrations.EnlistArguments} (hnew : t.AdmitsNew e a.participantKey)
    (hchanged : (t.enlist now e a).1 = true) :
    ∃ row, Registrations.get (t.enlist now e a).2 e a.participantKey = some row ∧ isActive row ∧
      Registrations.Behind (t.enlist now e a).2 row fun u => u.participantKey ≠ a.participantKey := by
  -- whoever is active in the event afterwards under another key was so before
  have hothers : ∀ u ∈ Registrations.ofEvent (t.enlist now e a).2 e, u.participantKey ≠ a.participantKey →
      u ∈ t.ofEvent e := by
    intro u hu hkey
    obtain ⟨hmem, hevent⟩ := mem_ofEvent.mp hu
    rcases RegistrationCall.mem_perform (c := .enlist e a) hmem with hold | ⟨row, _, hchange⟩ | hcreate
    · exact mem_ofEvent.mpr ⟨hold, hevent⟩
    · cases hchange with
      | stamp hc => cases hc
      | enlist hrow => exact absurd (Prod.mk.inj hrow).2 hkey
    · cases hcreate
      exact absurd rfl hkey
  suffices ∃ row, Registrations.get (t.enlist now e a).2 e a.participantKey = some row ∧
      isActive row ∧ queueTime row = t.enlistTime now e by
    obtain ⟨row, hget, hactive, htime⟩ := this
    refine ⟨row, hget, hactive, fun u hu huactive hukey => queueKey_lt_of_queueTime ?_⟩
    have hevent : row.eventId = e := (Prod.mk.inj (Registrations.key_of_get hget)).1
    rw [htime]
    exact queueTime_lt_enlistTime (hothers u (hevent ▸ hu) hukey) huactive
  unfold Registrations.enlist at hchanged ⊢
  cases hget : t.get e a.participantKey with
  | none =>
    refine ⟨a.newRow e now (t.enlistTime now e), ?_, rfl, ?_⟩
    · have hmissing : t.find? (a.newRow e now (t.enlistTime now e)).key = none := hget
      refine Table.find?_key (v := a.newRow e now (t.enlistTime now e)) ?_
      rw [Table.rows_insertNew_of_none hmissing]
      exact List.mem_append_right _ List.mem_cons_self
    · simp only [queueTime, Registrations.EnlistArguments.newRow]
      cases a.answerId <;> rfl
  | some row =>
    have hcancelled : isActive row = false := hnew row hget
    rw [hget] at hchanged
    dsimp only at hchanged ⊢
    split at hchanged
    · cases hchanged
    · next hop =>
      rw [if_neg hop, hcancelled]
      refine ⟨a.rewrite now (t.enlistTime now e) row, ?_, ?_, ?_⟩
      · exact Registrations.get_modify (f := a.rewrite now (t.enlistTime now e)) (fun _ => rfl) hget
      · exact a.isActive_rewrite _ _ row
      · simp only [queueTime, Registrations.EnlistArguments.rewrite, hcancelled]
        cases a.answerId <;> rfl

/-- The rows of a changed answer go behind the active rows that have the answer. -/
theorem updateAnswer_behind {op : OperationId} {keys : List ParticipantKey} {answerId : String}
    (hchanged : (t.updateAnswer now e op keys answerId).1 = true) :
    ∀ row ∈ Registrations.named (t.updateAnswer now e op keys answerId).2 e keys,
      row.answerId = some answerId ∧
        Registrations.Behind (t.updateAnswer now e op keys answerId).2 row
          fun u => u.answerId = some answerId ∧ u.participantKey ∉ keys := by
  intro row' hrow'
  unfold Registrations.updateAnswer at hchanged hrow' ⊢
  dsimp only at hchanged hrow' ⊢
  split at hchanged
  · cases hchanged
  · next hstale =>
    split at hchanged
    · cases hchanged
    · next hsame =>
      rw [if_neg hstale, if_neg hsame] at hrow' ⊢
      obtain ⟨hrow', hkey'⟩ := List.mem_filter.mp hrow'
      obtain ⟨hrow', hevent'⟩ := mem_ofEvent.mp hrow'
      have hkey' : row'.participantKey ∈ keys := by simpa using hkey'
      obtain ⟨row, hrow, ⟨hnamed, rfl⟩ | ⟨hunnamed, rfl⟩⟩ := Table.mem_map_ite hrow'
      swap
      · exact absurd ⟨hevent', hkey'⟩ hunnamed
      refine ⟨rfl, fun u hu hactive hu' => queueKey_lt_of_queueTime ?_⟩
      obtain ⟨hanswer, hother⟩ := hu'
      obtain ⟨hu, hevent⟩ := mem_ofEvent.mp hu
      obtain ⟨v, hv, ⟨hnamed', rfl⟩ | ⟨-, rfl⟩⟩ := Table.mem_map_ite hu
      · exact absurd hnamed'.2 hother
      have hstored : u ∈ t.ofEvent e := mem_ofEvent.mpr ⟨hv, hevent.trans hnamed.1⟩
      obtain ⟨latest, hlatest, hle⟩ := queueTime_le_latest
        (p := fun row => row.answerId = some answerId) hstored hactive (by simpa using hanswer)
      show queueTime u < max now ((t.latest e (·.answerId = some answerId)).getD now + microsecond)
      rw [hlatest]
      exact lt_of_lt_of_le (Int.lt_add_one_of_le hle) (le_max_right _ _)

/-- A call that leaves the places of the staying rows alone keeps the order. -/
theorem keepsOrder_of_changes
    (h : ∀ u ∈ t.rows, ∀ u', c.Changes now t u u' → Stays u u' → queueKey u' = queueKey u) :
    KeepsOrder t (c.perform now t).2 := by
  refine keepsOrder_of_places fun u hu u' hu' hstays => ?_
  rcases changes_of_key hu hu' hstays.key with rfl | hchange
  · rfl
  · exact h u hu u' hchange hstays

theorem keepsOrder_refl (t : Registrations) : KeepsOrder t t :=
  keepsOrder_of_places fun u hu u' hu' hstays => by rw [Table.eq_of_key_eq hu' hu hstays.key]

theorem enlist_unchanged {a : Registrations.EnlistArguments} (h : (t.enlist now e a).1 = false) :
    (t.enlist now e a).2 = t := by
  unfold Registrations.enlist at h ⊢
  split at h
  · exact nomatch h
  · split at h
    · next hop => rw [if_pos hop]
    · exact nomatch h

theorem updateAnswer_unchanged {op : OperationId} {keys : List ParticipantKey} {answerId : String}
    (h : (t.updateAnswer now e op keys answerId).1 = false) :
    (t.updateAnswer now e op keys answerId).2 = t := by
  unfold Registrations.updateAnswer at h ⊢
  dsimp only at h ⊢
  split at h
  · next hstale => rw [if_pos hstale]
  · next hstale =>
    split at h
    · next hsame => rw [if_neg hstale, if_pos hsame]
    · cases h

/-! ## A signup of an active row -/

section Resigned

variable {a : Registrations.EnlistArguments} {row : Registration}

/-- Without an answer the row keeps its place. -/
theorem queueKey_resigned_of_none (hsettled : Settled row) (hactive : isActive row)
    (hanswer : a.answerId = row.answerId) (hnone : row.answerId = none) :
    queueKey (a.rewrite now now row) = queueKey row := by
  simp only [queueKey, queueTime, Registrations.EnlistArguments.rewrite, hanswer, hnone,
    hsettled hnone, hactive, if_true, Option.isSome_none, Option.getD_none, Bool.false_eq_true,
    if_false]

/-- With an answer it gets the place of the clock. -/
theorem queueKey_resigned_of_some (hkey : row.key = (e, a.participantKey))
    (hanswer : a.answerId = row.answerId) (hsome : row.answerId.isSome) :
    queueKey (a.rewrite now now row) = toLex (now, a.participantKey) := by
  have hparticipant : row.participantKey = a.participantKey := (Prod.mk.inj hkey).2
  simp only [queueKey, queueTime, Registrations.EnlistArguments.rewrite, hanswer, hsome,
    hparticipant, if_true, Option.getD_some]

/-- Without a crossing, the other rows of the queue stand to the new place as to the old one. -/
theorem lt_resigned_iff (hsettled : Settled row) (hrow : row ∈ t.rows)
    (hkey : row.key = (e, a.participantKey)) (hactive : isActive row)
    (hop : row.lastOperationId ≠ a.operationId) (hanswer : a.answerId = row.answerId)
    (hcross : ¬ RegistrationCall.Overtakes now t (.enlist e a)) (hu : u ∈ t.rows)
    (huactive : isActive u) (hevent : u.eventId = row.eventId) (hsame : u.answerId = row.answerId)
    (hother : u.participantKey ≠ a.participantKey) :
    queueKey u < queueKey (a.rewrite now now row) ↔ queueKey u < queueKey row := by
  cases hanswered : row.answerId with
  | none => rw [queueKey_resigned_of_none hsettled hactive hanswer hanswered]
  | some answer =>
    have hsome : row.answerId.isSome := by rw [hanswered]; rfl
    rw [queueKey_resigned_of_some hkey hanswer hsome]
    by_contra hne
    refine hcross ⟨row, hrow, hkey, hactive, hop, hsome, hanswer.symm, u, ?_, huactive, ?_, hother, hne⟩
    · exact mem_ofEvent.mpr ⟨hu, hevent.trans (Prod.mk.inj hkey).1⟩
    · rw [hsame, hanswer]

theorem enlist_active (hget : t.get e a.participantKey = some row) (hactive : isActive row)
    (hop : row.lastOperationId ≠ a.operationId) :
    t.enlist now e a =
      (true, t.modify (e, a.participantKey) (a.rewrite now now)) := by
  unfold Registrations.enlist
  rw [hget]
  dsimp only
  rw [if_neg hop, hactive]
  rfl

/-- The row of the signup is rewritten, and every other row is what it was. -/
theorem row_of_enlist_active (hget : t.get e a.participantKey = some row) (hu : u ∈ t.rows)
    (hu' : u' ∈ (t.modify (e, a.participantKey) (a.rewrite now now)).rows) (hkey : u'.key = u.key) :
    (u = row ∧ u' = a.rewrite now now row) ∨ (u.key ≠ (e, a.participantKey) ∧ u' = u) := by
  obtain ⟨v, hv, ⟨hvkey, rfl⟩ | ⟨hvkey, rfl⟩⟩ := Table.mem_modify hu'
  · obtain rfl : v = u := Table.eq_of_key_eq hv hu hkey
    obtain rfl : v = row := Table.eq_of_key_eq hv (Registrations.mem_of_get hget)
      (hvkey.trans (Registrations.key_of_get hget).symm)
    exact .inl ⟨rfl, rfl⟩
  · obtain rfl : u' = u := Table.eq_of_key_eq hv hu hkey
    exact .inr ⟨hvkey, rfl⟩

theorem lt_iff_not_gt_of_ne {L : Type} [LinearOrder L] {x y : L} (h : x ≠ y) :
    x < y ↔ ¬ y < x :=
  ⟨fun hlt => not_lt_of_gt hlt, fun hle => (lt_or_gt_of_ne h).resolve_right hle⟩

/-- A signup of an active row keeps the order exactly if it crosses nobody's place. -/
theorem keepsOrder_enlist_active (hsettled : Settled row)
    (hget : t.get e a.participantKey = some row) (hactive : isActive row)
    (hop : row.lastOperationId ≠ a.operationId) :
    KeepsOrder t (t.modify (e, a.participantKey) (a.rewrite now now)) ↔
      ¬ RegistrationCall.Overtakes now t (.enlist e a) := by
  have hrow : row ∈ t.rows := Registrations.mem_of_get hget
  have hkey : row.key = (e, a.participantKey) := Registrations.key_of_get hget
  have hparticipant : row.participantKey = a.participantKey := (Prod.mk.inj hkey).2
  constructor
  · rintro hkeeps ⟨stored, hstored, hstoredkey, -, -, hsome, hanswer, u, hu, huactive, huanswer, hother, hcross⟩
    obtain rfl : stored = row := Table.eq_of_key_eq hstored hrow (hstoredkey.trans hkey.symm)
    obtain ⟨humem, huevent⟩ := mem_ofEvent.mp hu
    have hmoved : a.rewrite now now stored ∈
        (t.modify (e, a.participantKey) (a.rewrite now now)).rows :=
      List.mem_map.mpr ⟨stored, hrow, if_pos hkey⟩
    have hkept : u ∈ (t.modify (e, a.participantKey) (a.rewrite now now)).rows :=
      List.mem_map.mpr ⟨u, humem, if_neg fun h => hother (Prod.mk.inj h).2⟩
    have hiff := hkeeps u humem stored hrow (huevent.trans (Prod.mk.inj hkey).1.symm)
      (huanswer.trans hanswer.symm) u hkept _ hmoved ⟨rfl, huactive, huactive, rfl⟩
      ⟨rfl, hactive, a.isActive_rewrite now now stored, hanswer.symm⟩
    rw [queueKey_resigned_of_some hkey hanswer.symm hsome] at hiff
    exact hcross hiff
  · intro hcross u hu v hv hevent hqueue u' hu' v' hv' hstays hstays'
    rcases row_of_enlist_active hget hu hu' hstays.key with ⟨rfl, rfl⟩ | ⟨huother, rfl⟩
    · rcases row_of_enlist_active hget hv hv' hstays'.key with ⟨rfl, rfl⟩ | ⟨hvother, rfl⟩
      · exact ⟨fun h => absurd h (lt_irrefl _), fun h => absurd h (lt_irrefl _)⟩
      · -- the row of the signup in front
        have hne : v'.participantKey ≠ a.participantKey := fun h =>
          hvother (Prod.ext (hevent.symm.trans (Prod.mk.inj hkey).1) h)
        have hdistinct : u.participantKey ≠ v'.participantKey := hparticipant.trans_ne hne.symm
        have hplace := lt_resigned_iff hsettled hrow hkey hactive hop hstays.answer hcross hv
          hstays'.before hevent.symm hqueue.symm hne
        rw [lt_iff_not_gt_of_ne (queueKey_ne (u := a.rewrite now now u) hdistinct),
          lt_iff_not_gt_of_ne (queueKey_ne hdistinct), hplace]
    · rcases row_of_enlist_active hget hv hv' hstays'.key with ⟨rfl, rfl⟩ | ⟨hvother, rfl⟩
      · -- the row of the signup behind
        have hne : u'.participantKey ≠ a.participantKey := fun h =>
          huother (Prod.ext (hevent.trans (Prod.mk.inj hkey).1) h)
        exact lt_resigned_iff hsettled hrow hkey hactive hop hstays'.answer hcross hu hstays.before
          hevent hqueue hne
      · exact Iff.rfl

end Resigned

theorem inOrder_enlist_iff {a : Registrations.EnlistArguments} (ht : ∀ row ∈ t.rows, Settled row) :
    (RegistrationCall.enlist e a).InOrder t (t.enlist now e a).2 (t.enlist now e a).1 ↔
      ¬ RegistrationCall.Overtakes now t (.enlist e a) := by
  by_cases hnew : t.AdmitsNew e a.participantKey
  · refine ⟨?_, fun _ => ⟨fun hchanged _ => enlist_behind hnew hchanged, fun h => ?_⟩⟩
    · rintro - ⟨row, hrow, hkey, hactive, -⟩
      have hinactive : isActive row = false := hnew row (Table.find?_eq_some_iff.mpr ⟨hrow, hkey⟩)
      rw [hinactive] at hactive
      cases hactive
    · have hunchanged := h.resolve_right fun h => h hnew
      exact (enlist_unchanged hunchanged).symm ▸ keepsOrder_refl t
  · obtain ⟨row, hget, hactive⟩ : ∃ row, t.get e a.participantKey = some row ∧ isActive row := by
      simpa [Registrations.AdmitsNew] using hnew
    have hrow : row ∈ t.rows := Registrations.mem_of_get hget
    by_cases hop : row.lastOperationId = a.operationId
    · have hunchanged : t.enlist now e a = (false, t) := by
        simp only [Registrations.enlist, hget, hop, if_true]
      rw [hunchanged]
      refine ⟨?_, fun _ => ⟨fun h => (by cases h), fun _ => keepsOrder_refl t⟩⟩
      rintro - ⟨stored, hstored, hkey, -, hstale, -⟩
      obtain rfl : stored = row :=
        Table.eq_of_key_eq hstored hrow (hkey.trans (Registrations.key_of_get hget).symm)
      exact hstale hop
    · rw [enlist_active hget hactive hop, ← keepsOrder_enlist_active (ht row hrow) hget hactive hop]
      exact ⟨fun h => h.2 (.inr hnew), fun h => ⟨fun _ hadmits => absurd hadmits hnew, fun _ => h⟩⟩

/-! ## Every call -/

/-- What a call owes to the queues, it pays exactly if it is no overtaking signup. -/
theorem inOrder_iff (ht : ∀ row ∈ t.rows, Settled row) :
    c.InOrder t (c.perform now t).2 (c.perform now t).1 ↔ ¬ c.Overtakes now t := by
  have hplain (hc : ∀ u u', c.Changes now t u u' → queueKey u' = queueKey u) :
      KeepsOrder t (c.perform now t).2 :=
    keepsOrder_of_changes fun u _ u' h _ => hc u u' h
  cases c with
  | enlist e a => exact inOrder_enlist_iff ht
  | updateAnswer e op keys answerId =>
    refine ⟨fun _ h => h, fun _ => ⟨updateAnswer_behind, fun hunchanged => ?_⟩⟩
    have hsame := updateAnswer_unchanged hunchanged
    exact hsame.symm ▸ keepsOrder_refl t
  | siftWaitingToEnd => exact ⟨fun _ h => h, fun _ => trivial⟩
  | swapQueuePositions => exact ⟨fun _ h => h, fun _ => trivial⟩
  | _ =>
    exact ⟨fun _ h => h, fun _ => hplain fun u u' h => by cases h with
      | stamp hc _ => exact hc.queueKey u⟩

/-! ## Every run -/

theorem settled_legacy (eventId : EventId) (row : LegacyRow) :
    Settled (row.toRegistration eventId) :=
  fun _ => rfl

/-- The imported rows aside, a call leaves no instant of an answer without the answer. -/
theorem settled_perform (hc : ∀ rows, c = .importMissing rows → ∀ row ∈ rows, Settled row)
    (ht : ∀ row ∈ t.rows, Settled row) : ∀ row ∈ (c.perform now t).2.rows, Settled row := by
  intro row' hrow'
  rcases RegistrationCall.mem_perform hrow' with hold | ⟨row, hrow, hchange⟩ | hcreate
  · exact ht row' hold
  · have hsettled : Settled row := ht row hrow
    cases hchange with
    | stamp hstamp =>
      intro hnone
      exact (hstamp.answerQueueAt row).trans (hsettled ((hstamp.answerId row).symm.trans hnone))
    | enlist =>
      intro hnone
      simp only [Registrations.EnlistArguments.rewrite] at hnone ⊢
      rw [hnone]
      rfl
    | updateAnswer => exact fun hnone => nomatch hnone
    | sift =>
      unfold Registrations.siftRow
      split
      · next hsome =>
        intro hnone
        rw [hnone] at hsome
        exact nomatch hsome
      · exact hsettled
    | swap =>
      intro hnone
      simp only [Registrations.placeRow] at hnone ⊢
      rw [hnone]
      exact hsettled hnone
  · cases hcreate with
    | importMissing hmem => exact hc _ rfl row' hmem
    | enlist =>
      intro hnone
      simp only [Registrations.EnlistArguments.newRow] at hnone ⊢
      rw [hnone]
      rfl

section Runs

variable {setting : Setting} {bot : Deployment} {otherServices : OtherServices} {s₀ s : Plant}

theorem settled_import {rows : List Registration}
    (h : (Call.registrations (.importMissing rows)).IsMaintenance setting.legal) :
    ∀ row ∈ rows, Settled row := by
  obtain ⟨event, legacy, -, -, -, rfl⟩ := h
  intro row hrow
  obtain ⟨imported, -, rfl⟩ := List.mem_map.mp hrow
  exact settled_legacy event.eventId imported

theorem settled_reached
    (hs : Fleet.Reaches (queue bot otherServices) storage setting.Allows s₀ s)
    (hosts : setting.Hosts otherServices) (hidle : s₀.Idle)
    (hempty : s₀.world.registrations = Table.empty) :
    ∀ row ∈ s.world.registrations.rows, Settled row := by
  refine Setting.registrations_rule bot (fun t => ∀ row ∈ t.rows, Settled row) hs
    (fun _ _ h => h) hosts hidle ?_ ?_ ?_
  · rw [hempty]
    exact fun row hrow => absurd hrow List.not_mem_nil
  · intro command c now t _ hc ht
    refine settled_perform (fun rows himport => ?_) ht
    subst himport
    exact settled_import (hc.resolve_right id)
  · intro c now t hc ht
    refine settled_perform (fun rows himport => ?_) ht
    subst himport
    exact settled_import (hc.resolve_right id)

/-- In every state that a run reaches, whatever call comes next does right by the queues exactly if
it is no overtaking signup. -/
theorem queues_in_order_iff
    (hs : Fleet.Reaches (queue bot otherServices) storage setting.Allows s₀ s)
    (hosts : setting.Hosts otherServices) (hidle : s₀.Idle)
    (hempty : s₀.world.registrations = Table.empty) (c : RegistrationCall) (now : Time) :
    c.InOrder s.world.registrations (c.perform now s.world.registrations).2
        (c.perform now s.world.registrations).1 ↔
      ¬ c.Overtakes now s.world.registrations :=
  inOrder_iff (settled_reached hs hosts hidle hempty)

end Runs

/-! ## An overtaking signup -/

instance {a : Registrations.EnlistArguments} :
    Decidable (RegistrationCall.Overtakes now t (.enlist e a)) :=
  inferInstanceAs (Decidable (∃ row ∈ t.rows, _))

/-- The next call of a lane, if it is a signup. -/
def nextSignup (s : Plant) (lane : String) :
    Option (OrderedRegistrationCommand × EventId × Registrations.EnlistArguments) :=
  match s.lanes lane with
  | .working command (.call (.registrations (.enlist e a)) _) _ => some (command, e, a)
  | _ => none

theorem calls_of_nextSignup {s : Plant} {lane : String} {command : OrderedRegistrationCommand}
    {a : Registrations.EnlistArguments} (h : nextSignup s lane = some (command, e, a)) :
    s.Calls lane command (.registrations (.enlist e a)) := by
  unfold nextSignup at h
  split at h
  · next hlane =>
    obtain ⟨rfl, rfl, rfl⟩ : _ ∧ _ ∧ _ := by simpa using h
    exact ⟨_, _, hlane⟩
  · exact nomatch h

def signup (player : Nat) : OrderedRegistrationCommand where
  operationId := s!"signup-{player}"
  eventId := "game"
  operation := .enlist
  platform := .telegram
  platformUserId := player
  participantKey := some (sampleKey player "game")
  payload := .enlist { answerId := some "a", displayName := "Игрок", wishPlay := "" }
  participant_named := fun _ => sampleKey_ne_empty player "game"

def confirmation (player : Nat) : OrderedRegistrationCommand where
  operationId := s!"confirmation-{player}"
  eventId := "game"
  operation := .confirm
  platform := .telegram
  platformUserId := player
  participantKey := some (sampleKey player "game")
  payload := .characterWish { characterWish := "" }
  participant_named := fun _ => sampleKey_ne_empty player "game"

def sifting : OrderedRegistrationCommand where
  operationId := "sift"
  eventId := "game"
  operation := .removeWaitingParticipants
  platform := .telegram
  platformUserId := 1

/-- A game with one answer, in the days of its confirmation. -/
def answerWorld : World where
  users := ⟨[1, 2, 3, 4].map samplePlayer, by decide⟩
  events := ⟨[{
    eventId := "game"
    name := "Игра"
    status := .confirmationOpen
    registrationQuestion := some ⟨"Стол?", [⟨"a", "Первый", 2⟩], by decide⟩ }], by decide⟩
  leaders := ⟨[("game", ⟨.telegram, 1⟩)], game_led⟩

/-- Three players sign up, the third one confirms, and the sift moves the others an hour ahead of the
clock. Then player 4 signs up: the first attempt dies behind its write, the second one has checked
the row when the confirmation of player 4 stamps it. -/
def overtakingSchedule : List Move :=
  [.publish (signup 1), .publish (signup 2), .publish (signup 3), .publish sifting,
    .publish (signup 4), .publish (confirmation 3), .publish (confirmation 4)] ++
  Fleet.attempt "game" 30 (goodDay 0) (.finish "game") ++
  Fleet.attempt "game" 30 (goodDay 3600000000) (.finish "game") ++
  Fleet.attempt "game" 30 (goodDay 3600000001) (.finish "game") ++
  Fleet.attempt "confirmation:telegram:3" 40 (goodDay 3600000002)
    (.finish "confirmation:telegram:3") ++
  Fleet.attempt "game" 30 (goodDay 3600000003) (.finish "game") ++
  Fleet.attempt "game" 7 (goodDay 3600000004) (.abandon "game") ++
  .start "game" :: List.replicate 6 (.call "game" (goodDay 3600000005)) ++
  Fleet.attempt "confirmation:telegram:4" 40 (goodDay 3600000006)
    (.finish "confirmation:telegram:4")

def overtakingPlant : Plant :=
  Fleet.play (queue sampleBot noServices) storage { world := answerWorld } overtakingSchedule

theorem overtakingPlant_reached :
    Fleet.Reaches (queue sampleBot noServices) storage anySetting.Allows { world := answerWorld }
      overtakingPlant :=
  anySetting_play (by decide +kernel)

/-- The call that the signup of player 4 is about to make. -/
theorem overtakingPlant_next :
    (nextSignup overtakingPlant "game").any (fun next =>
      decide (RegistrationCall.Overtakes 3600000007 overtakingPlant.world.registrations
        (.enlist next.2.1 next.2.2))) = true := by
  decide +kernel

/-- The retry of a signup takes an active row across the place of another player. -/
theorem overtaking_reached : ∃ s₀ s : Plant,
    s₀.Idle ∧ s₀.world.registrations = Table.empty ∧
    Fleet.Reaches (queue sampleBot noServices) storage anySetting.Allows s₀ s ∧
    ∃ command c, s.Calls "game" command (.registrations c) ∧
      ¬ c.InOrder s.world.registrations (c.perform 3600000007 s.world.registrations).2
        (c.perform 3600000007 s.world.registrations).1 := by
  refine ⟨{ world := answerWorld }, overtakingPlant, fun _ => rfl, rfl, overtakingPlant_reached, ?_⟩
  have hnext := overtakingPlant_next
  cases h : nextSignup overtakingPlant "game" with
  | none =>
    rw [h] at hnext
    exact nomatch hnext
  | some next =>
    obtain ⟨command, e, a⟩ := next
    rw [h, Option.any_some, decide_eq_true_eq] at hnext
    refine ⟨command, .enlist e a, calls_of_nextSignup h, fun horder => ?_⟩
    exact (inOrder_iff (settled_reached overtakingPlant_reached anySetting_hosts (fun _ => rfl) rfl)).mp
      horder hnext

/-- A cancellation at the same moment leaves the queues in order. -/
theorem overtakingPlant_cancel :
    (RegistrationCall.cancel "game" "cancellation-4" (sampleKey 4 "game")).InOrder
      overtakingPlant.world.registrations
      (overtakingPlant.world.registrations.cancel 3600000007 "game" "cancellation-4"
        (sampleKey 4 "game")).2
      (overtakingPlant.world.registrations.cancel 3600000007 "game" "cancellation-4"
        (sampleKey 4 "game")).1 :=
  (queues_in_order_iff overtakingPlant_reached anySetting_hosts (fun _ => rfl) rfl
    (.cancel "game" "cancellation-4" (sampleKey 4 "game")) 3600000007).mpr id

end LarpBot
