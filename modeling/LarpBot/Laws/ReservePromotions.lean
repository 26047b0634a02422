import LarpBot.Laws.QueueOrder

/-!
# Promotions from the reserve

A promotion gives each of two rows the queue time of the other. The place of a row is decided by its
queue time and then by its participant key, and the keys stay with the rows: so the two trade places
exactly if no third row shares a queue time with one of them and has its key between theirs
(`trades_iff`). Queue times are shared by the rows of a linked person, which a change of answer
places at one instant.
-/

namespace LarpBot

open Atomic

/-- The queue of a row with this answer. -/
def answerQueue (event : Event) (rows : List Registration) (answerId : Option String) :
    List Registration :=
  activeQueue rows (if event.registrationQuestion.isSome then answerId else none)

/-- Two rows have traded places in the queues of an event, and nobody else has moved. -/
def Traded (event : Event) (rows rows' : List Registration) (promoted demoted : ParticipantKey) :
    Prop :=
  ∀ answerId, (event.registrationQuestion.isSome → answerId.isSome) →
    (answerQueue event rows' answerId).map Registration.participantKey =
    ((answerQueue event rows answerId).map Registration.participantKey).map
      (Equiv.swap promoted demoted)

/-- Nobody stands between two rows at one instant: the times differ, and no third row of the queue
shares one of them with a key between theirs. -/
def Unambiguous (queue : List Registration) (promoted demoted : Registration) : Prop :=
  queueTime promoted ≠ queueTime demoted ∧
    ∀ row ∈ queue, row.participantKey ≠ promoted.participantKey →
      row.participantKey ≠ demoted.participantKey →
      queueTime row = queueTime promoted ∨ queueTime row = queueTime demoted →
      (row.participantKey < promoted.participantKey ↔ row.participantKey < demoted.participantKey)

instance (queue : List Registration) (promoted demoted : Registration) :
    Decidable (Unambiguous queue promoted demoted) :=
  inferInstanceAs (Decidable (_ ∧ ∀ row ∈ queue, _))

/-- The arguments of a swap name two stored rows of one queue, with the queue times they have. -/
structure Nominated (event : Event) (t : Registrations) (a : Registrations.SwapArguments)
    (promoted demoted : Registration) : Prop where
  promoted_stored : t.get event.eventId a.promotedParticipantKey = some promoted
  demoted_stored : t.get event.eventId a.demotedParticipantKey = some demoted
  promoted_active : isActive promoted
  demoted_active : isActive demoted
  promoted_at : a.promotedCreatedAt = queueTime promoted
  demoted_at : a.demotedCreatedAt = queueTime demoted
  distinct : a.promotedParticipantKey ≠ a.demotedParticipantKey
  answered : event.registrationQuestion.isSome → promoted.answerId.isSome
  one_queue : event.registrationQuestion.isSome → promoted.answerId = demoted.answerId

/-- The members of a queue, in the order of the table. -/
def queueMembers (event : Event) (t : Registrations) (answerId : Option String) :
    List Registration :=
  (t.ofEvent event.eventId).filter fun row => isActive row &&
    (!event.registrationQuestion.isSome || answerId.isNone || row.answerId = answerId)

variable {event : Event} {t : Registrations} {a : Registrations.SwapArguments}
  {promoted demoted row : Registration} {answerId : Option String} {now : Time}

/-! ## Queues of a table -/

theorem mem_queueMembers : row ∈ queueMembers event t answerId ↔
    row ∈ t.rows ∧ row.eventId = event.eventId ∧ isActive row ∧
      (event.registrationQuestion.isSome → answerId = none ∨ row.answerId = answerId) := by
  cases hasked : event.registrationQuestion.isSome <;>
    simp [queueMembers, mem_ofEvent, hasked, Option.isNone_iff_eq_none, and_assoc]

theorem ranks_ofEvent (t : Registrations) (e : EventId) : Ranks queueKey (t.ofEvent e) := by
  intro u hu v hv hkey
  obtain ⟨hu, huevent⟩ := mem_ofEvent.mp hu
  obtain ⟨hv, hvevent⟩ := mem_ofEvent.mp hv
  apply Table.eq_of_key_eq hu hv
  exact Prod.ext (huevent.trans hvevent.symm) (congrArg (fun k => (ofLex k).2) hkey)

theorem nodup_queueMembers : (queueMembers event t answerId).Nodup :=
  (t.rows_nodup.filter _).filter _

theorem ranks_queueMembers : Ranks queueKey (queueMembers event t answerId) :=
  (ranks_ofEvent t event.eventId).filter _

theorem answerQueue_eq : answerQueue event (t.listForEvent event.eventId) answerId =
    sortBy queueKey (queueMembers event t answerId) := by
  rw [answerQueue, activeQueue]
  apply sortBy_eq_of_perm ranks_queueMembers
  have hmembers : queueMembers event t answerId =
      (t.ofEvent event.eventId).filter fun row => isActive row &&
        ((if event.registrationQuestion.isSome then answerId else none).isNone ||
          row.answerId = if event.registrationQuestion.isSome then answerId else none) := by
    apply List.filter_congr
    intro row _
    cases hasked : event.registrationQuestion.isSome <;> simp
  rw [hmembers]
  exact (sortBy_perm Registrations.listKey _).filter _

/-- Rows of a queue with one participant key are one row. -/
theorem eq_of_participantKey {u v : Registration} (hu : u ∈ queueMembers event t answerId)
    (hv : v ∈ queueMembers event t answerId) (h : u.participantKey = v.participantKey) : u = v := by
  obtain ⟨hu, huevent, -⟩ := mem_queueMembers.mp hu
  obtain ⟨hv, hvevent, -⟩ := mem_queueMembers.mp hv
  exact Table.eq_of_key_eq hu hv (Prod.ext (huevent.trans hvevent.symm) h)

/-! ## The rows of a swap -/

/-- What a swap makes of a row. -/
def tradedRow (e : EventId) (a : Registrations.SwapArguments) (now : Time) (row : Registration) :
    Registration :=
  if row.key = (e, a.promotedParticipantKey) then
    Registrations.placeRow a.operationId now a.demotedCreatedAt row
  else if row.key = (e, a.demotedParticipantKey) then
    Registrations.placeRow a.operationId now a.promotedCreatedAt row
  else row

section Traded

variable (e : EventId) (a : Registrations.SwapArguments) (now : Time) (row : Registration)

@[simp] theorem eventId_tradedRow : (tradedRow e a now row).eventId = row.eventId := by
  unfold tradedRow
  split
  · rfl
  · split <;> rfl

@[simp] theorem participantKey_tradedRow :
    (tradedRow e a now row).participantKey = row.participantKey := by
  unfold tradedRow
  split
  · rfl
  · split <;> rfl

@[simp] theorem answerId_tradedRow : (tradedRow e a now row).answerId = row.answerId := by
  unfold tradedRow
  split
  · rfl
  · split <;> rfl

@[simp] theorem isActive_tradedRow : isActive (tradedRow e a now row) = isActive row := by
  unfold tradedRow
  split
  · rfl
  · split <;> rfl

end Traded

/-- A settled row that is placed queues by its new time. -/
theorem queueTime_placeRow {op : OperationId} {queueAt : Time} (h : Settled row) :
    queueTime (Registrations.placeRow op now queueAt row) = queueAt := by
  unfold queueTime Registrations.placeRow
  cases hanswer : row.answerId with
  | none => simp [h hanswer]
  | some answer => simp

theorem Nominated.keys (h : Nominated event t a promoted demoted) :
    promoted.key = (event.eventId, a.promotedParticipantKey) ∧
      demoted.key = (event.eventId, a.demotedParticipantKey) :=
  ⟨Registrations.key_of_get h.promoted_stored, Registrations.key_of_get h.demoted_stored⟩

/-- The swap writes the two rows, unless it has stamped both before. -/
theorem Nominated.swap_eq (h : Nominated event t a promoted demoted)
    (hnew : ¬ (promoted.lastOperationId = a.operationId ∧ demoted.lastOperationId = a.operationId)) :
    (t.swapQueuePositions now event.eventId a).1 = true ∧
      (t.swapQueuePositions now event.eventId a).2.rows =
        t.rows.map (tradedRow event.eventId a now) := by
  have hswap : t.swapQueuePositions now event.eventId a =
      (true, (t.modify (event.eventId, a.promotedParticipantKey)
        (Registrations.placeRow a.operationId now a.demotedCreatedAt)).modify
          (event.eventId, a.demotedParticipantKey)
          (Registrations.placeRow a.operationId now a.promotedCreatedAt)) := by
    unfold Registrations.swapQueuePositions
    rw [h.promoted_stored, h.demoted_stored]
    exact if_neg hnew
  rw [hswap]
  refine ⟨rfl, ?_⟩
  show List.map _ (List.map _ t.rows) = _
  rw [List.map_map]
  apply List.map_congr_left
  intro row _
  have hplaced : (Registrations.placeRow a.operationId now a.demotedCreatedAt row).key = row.key := rfl
  by_cases hp : row.key = (event.eventId, a.promotedParticipantKey)
  · have hd : row.key ≠ (event.eventId, a.demotedParticipantKey) := by
      rw [hp]
      exact fun heq => h.distinct (Prod.mk.inj heq).2
    simp only [Function.comp_apply, tradedRow, hp, if_true]
    rw [hplaced, if_neg hd]
  · simp only [Function.comp_apply, tradedRow, hp, if_false]

theorem Nominated.mem_promoted (h : Nominated event t a promoted demoted) :
    promoted ∈ queueMembers event t promoted.answerId :=
  mem_queueMembers.mpr ⟨Registrations.mem_of_get h.promoted_stored, (Prod.mk.inj h.keys.1).1,
    h.promoted_active, fun _ => .inr rfl⟩

theorem Nominated.mem_demoted (h : Nominated event t a promoted demoted) :
    demoted ∈ queueMembers event t promoted.answerId :=
  mem_queueMembers.mpr ⟨Registrations.mem_of_get h.demoted_stored, (Prod.mk.inj h.keys.2).1,
    h.demoted_active, fun hasked => .inr (h.one_queue hasked).symm⟩

/-- The queues after a swap hold the same rows, the two of the swap at new places. -/
theorem queueMembers_swap {t' : Registrations}
    (hrows : t'.rows = t.rows.map (tradedRow event.eventId a now)) (answerId : Option String) :
    queueMembers event t' answerId =
      (queueMembers event t answerId).map (tradedRow event.eventId a now) := by
  unfold queueMembers Registrations.ofEvent
  rw [hrows]
  simp only [List.filter_map, List.filter_filter]
  congr 1
  apply List.filter_congr
  intro row _
  simp

/-! ## The order after a swap -/

theorem queueKey_lt_iff {u v : Registration} : queueKey u < queueKey v ↔
    queueTime u < queueTime v ∨ queueTime u = queueTime v ∧ u.participantKey < v.participantKey :=
  Prod.Lex.toLex_lt_toLex

/-- A row of the queue that is neither of the two. -/
theorem Nominated.third (h : Nominated event t a promoted demoted)
    (hrow : row ∈ queueMembers event t promoted.answerId) :
    row = promoted ∨ row = demoted ∨
      (row.participantKey ≠ promoted.participantKey ∧ row.participantKey ≠ demoted.participantKey) := by
  by_cases hp : row.participantKey = promoted.participantKey
  · exact .inl (eq_of_participantKey hrow h.mem_promoted hp)
  · by_cases hd : row.participantKey = demoted.participantKey
    · exact .inr (.inl (eq_of_participantKey hrow h.mem_demoted hd))
    · exact .inr (.inr ⟨hp, hd⟩)

theorem Nominated.ne (h : Nominated event t a promoted demoted) :
    promoted.participantKey ≠ demoted.participantKey := by
  rw [(Prod.mk.inj h.keys.1).2, (Prod.mk.inj h.keys.2).2]
  exact h.distinct

/-- After the swap a row queues by the time of the row it has traded with. -/
theorem Nominated.queueTime_traded (h : Nominated event t a promoted demoted) (hsettled : ∀ row ∈ t.rows, Settled row)
    (hrow : row ∈ queueMembers event t promoted.answerId) :
    queueTime (tradedRow event.eventId a now row) = queueTime (Equiv.swap promoted demoted row) := by
  have hkeys := h.keys
  have hp : Settled promoted := hsettled _ (Registrations.mem_of_get h.promoted_stored)
  have hd : Settled demoted := hsettled _ (Registrations.mem_of_get h.demoted_stored)
  rcases h.third hrow with rfl | rfl | ⟨hnp, hnd⟩
  · rw [Equiv.swap_apply_left, tradedRow, if_pos hkeys.1, queueTime_placeRow hp, h.demoted_at]
  · have hother : row.key ≠ (event.eventId, a.promotedParticipantKey) := by
      rw [hkeys.2]
      exact fun heq => h.distinct (Prod.mk.inj heq).2.symm
    rw [Equiv.swap_apply_right, tradedRow, if_neg hother, if_pos hkeys.2, queueTime_placeRow hd,
      h.promoted_at]
  · have hnot {key : ParticipantKey} (hkey : row.participantKey ≠ key) :
        row.key ≠ (event.eventId, key) := fun heq => hkey (Prod.mk.inj heq).2
    rw [(Prod.mk.inj hkeys.1).2] at hnp
    rw [(Prod.mk.inj hkeys.2).2] at hnd
    rw [tradedRow, if_neg (hnot hnp), if_neg (hnot hnd), Equiv.swap_apply_of_ne_of_ne]
    · exact fun heq => hnp (heq ▸ (Prod.mk.inj hkeys.1).2)
    · exact fun heq => hnd (heq ▸ (Prod.mk.inj hkeys.2).2)

/-- Among rows at one instant the keys decide, and only those of the two rows are exchanged. -/
theorem Nominated.ordered_iff (h : Nominated event t a promoted demoted) (now : Time)
    (hsettled : ∀ row ∈ t.rows, Settled row) :
    (∀ u ∈ queueMembers event t promoted.answerId, ∀ v ∈ queueMembers event t promoted.answerId,
      (queueKey (tradedRow event.eventId a now u) < queueKey (tradedRow event.eventId a now v) ↔
        queueKey (Equiv.swap promoted demoted u) < queueKey (Equiv.swap promoted demoted v))) ↔
      Unambiguous (queueMembers event t promoted.answerId) promoted demoted := by
  have hne := h.ne
  have hrows : promoted ≠ demoted := fun heq => hne (congrArg Registration.participantKey heq)
  -- where the times differ they decide in both orders
  have hties : ∀ u ∈ queueMembers event t promoted.answerId,
      ∀ v ∈ queueMembers event t promoted.answerId,
      ((queueKey (tradedRow event.eventId a now u) < queueKey (tradedRow event.eventId a now v) ↔
        queueKey (Equiv.swap promoted demoted u) < queueKey (Equiv.swap promoted demoted v)) ↔
      (queueTime (Equiv.swap promoted demoted u) = queueTime (Equiv.swap promoted demoted v) →
        (u.participantKey < v.participantKey ↔
          (Equiv.swap promoted demoted u).participantKey <
            (Equiv.swap promoted demoted v).participantKey))) := by
    intro u hu v hv
    rw [queueKey_lt_iff, queueKey_lt_iff, h.queueTime_traded hsettled hu,
      h.queueTime_traded hsettled hv, participantKey_tradedRow, participantKey_tradedRow]
    by_cases htie : queueTime (Equiv.swap promoted demoted u) =
        queueTime (Equiv.swap promoted demoted v)
    · simp [htie]
    · simp [htie]
  constructor
  · intro hall
    have hat (u : Registration) (hu : u ∈ queueMembers event t promoted.answerId)
        (v : Registration) (hv : v ∈ queueMembers event t promoted.answerId) :=
      (hties u hu v hv).mp (hall u hu v hv)
    refine ⟨fun htime => ?_, fun row hrow hnp hnd htime => ?_⟩
    · have hpair := hat promoted h.mem_promoted demoted h.mem_demoted
      rw [Equiv.swap_apply_left, Equiv.swap_apply_right] at hpair
      have hkeys := hpair htime.symm
      rcases lt_or_gt_of_ne hne with hlt | hgt
      · exact absurd (hkeys.mp hlt) (not_lt_of_gt hlt)
      · exact absurd (hkeys.mpr hgt) (not_lt_of_gt hgt)
    · have hthird : Equiv.swap promoted demoted row = row :=
        Equiv.swap_apply_of_ne_of_ne (fun heq => hnp (congrArg Registration.participantKey heq))
          fun heq => hnd (congrArg Registration.participantKey heq)
      rcases htime with htime | htime
      · have hpair := hat row hrow demoted h.mem_demoted
        rw [hthird, Equiv.swap_apply_right] at hpair
        exact (hpair htime).symm
      · have hpair := hat row hrow promoted h.mem_promoted
        rw [hthird, Equiv.swap_apply_left] at hpair
        exact hpair htime
  · rintro ⟨htimes, hthirds⟩ u hu v hv
    rw [hties u hu v hv]
    have hthird {row : Registration} (hnp : row.participantKey ≠ promoted.participantKey)
        (hnd : row.participantKey ≠ demoted.participantKey) : Equiv.swap promoted demoted row = row :=
      Equiv.swap_apply_of_ne_of_ne (fun heq => hnp (congrArg Registration.participantKey heq))
        fun heq => hnd (congrArg Registration.participantKey heq)
    have hflip {x y z : ParticipantKey} (hx : z ≠ x) (hy : z ≠ y) (hxy : z < x ↔ z < y) :
        (x < z ↔ y < z) := by
      rw [lt_iff_not_gt_of_ne (Ne.symm hx), lt_iff_not_gt_of_ne (Ne.symm hy), hxy]
    rcases h.third hu with rfl | rfl | ⟨hnp, hnd⟩ <;> rcases h.third hv with rfl | rfl | ⟨hnp', hnd'⟩
    · simp
    · rw [Equiv.swap_apply_left, Equiv.swap_apply_right]
      exact fun htime => absurd htime.symm htimes
    · rw [Equiv.swap_apply_left, hthird hnp' hnd']
      exact fun htime => hflip hnp' hnd' (hthirds v hv hnp' hnd' (.inr htime.symm))
    · rw [Equiv.swap_apply_left, Equiv.swap_apply_right]
      exact fun htime => absurd htime htimes
    · simp
    · rw [Equiv.swap_apply_right, hthird hnp' hnd']
      exact fun htime => hflip hnd' hnp' (hthirds v hv hnp' hnd' (.inl htime.symm)).symm
    · rw [Equiv.swap_apply_left, hthird hnp hnd]
      exact fun htime => hthirds u hu hnp hnd (.inr htime)
    · rw [Equiv.swap_apply_right, hthird hnp hnd]
      exact fun htime => (hthirds u hu hnp hnd (.inl htime)).symm
    · rw [hthird hnp hnd, hthird hnp' hnd']
      exact fun _ => Iff.rfl

/-! ## Trades -/

section Trades

variable {t' : Registrations}

/-- The participant keys of a queue after the swap, in the order of the swapped rows. -/
theorem keys_answerQueue_swap (hrows : t'.rows = t.rows.map (tradedRow event.eventId a now))
    (answerId : Option String) :
    (answerQueue event (t'.listForEvent event.eventId) answerId).map Registration.participantKey =
      (sortBy (fun row => queueKey (tradedRow event.eventId a now row))
        (queueMembers event t answerId)).map Registration.participantKey := by
  rw [answerQueue_eq, queueMembers_swap hrows, sortBy_map, List.map_map]
  apply List.map_congr_left
  intro row _
  exact participantKey_tradedRow event.eventId a now row

/-- The keys of the two rows are exchanged as the rows are. -/
theorem Nominated.keys_swap (h : Nominated event t a promoted demoted) {rows : List Registration}
    (hrows : ∀ row ∈ rows, row ∈ queueMembers event t promoted.answerId) :
    (rows.map (Equiv.swap promoted demoted)).map Registration.participantKey =
      (rows.map Registration.participantKey).map
        (Equiv.swap promoted.participantKey demoted.participantKey) := by
  rw [List.map_map, List.map_map]
  apply List.map_congr_left
  intro row hrow
  have hne := h.ne
  show (Equiv.swap promoted demoted row).participantKey = Equiv.swap _ _ row.participantKey
  rcases h.third (hrows row hrow) with rfl | rfl | ⟨hnp, hnd⟩
  · rw [Equiv.swap_apply_left, Equiv.swap_apply_left]
  · rw [Equiv.swap_apply_right, Equiv.swap_apply_right]
  · rw [Equiv.swap_apply_of_ne_of_ne hnp hnd, Equiv.swap_apply_of_ne_of_ne]
    · exact fun heq => hnp (congrArg Registration.participantKey heq)
    · exact fun heq => hnd (congrArg Registration.participantKey heq)

/-- Rows of one queue are told apart by their keys. -/
theorem eq_of_map_participantKey {l l' : List Registration}
    (hl : ∀ row ∈ l, row ∈ queueMembers event t answerId)
    (hl' : ∀ row ∈ l', row ∈ queueMembers event t answerId)
    (h : l.map Registration.participantKey = l'.map Registration.participantKey) : l = l' := by
  induction l generalizing l' with
  | nil => exact (List.map_eq_nil_iff.mp h.symm).symm
  | cons u l ih =>
    cases l' with
    | nil => exact nomatch h
    | cons v l' =>
      obtain ⟨hkey, hrest⟩ := List.cons.inj h
      have hsame : u = v := eq_of_participantKey (hl u List.mem_cons_self) (hl' v List.mem_cons_self) hkey
      rw [hsame, ih (fun row hrow => hl row (List.mem_cons_of_mem u hrow))
        (fun row hrow => hl' row (List.mem_cons_of_mem v hrow)) hrest]

/-- In a queue that holds neither row nobody moves. -/
theorem Nominated.keys_elsewhere (h : Nominated event t a promoted demoted)
    (hrows : t'.rows = t.rows.map (tradedRow event.eventId a now))
    (hother : ∀ row ∈ queueMembers event t answerId,
      row.participantKey ≠ promoted.participantKey ∧ row.participantKey ≠ demoted.participantKey) :
    (answerQueue event (t'.listForEvent event.eventId) answerId).map Registration.participantKey =
      ((answerQueue event (t.listForEvent event.eventId) answerId).map
        Registration.participantKey).map
          (Equiv.swap promoted.participantKey demoted.participantKey) := by
  have hkeys := h.keys
  have hsame : ∀ row ∈ queueMembers event t answerId, tradedRow event.eventId a now row = row := by
    intro row hrow
    obtain ⟨hnp, hnd⟩ := hother row hrow
    rw [(Prod.mk.inj hkeys.1).2] at hnp
    rw [(Prod.mk.inj hkeys.2).2] at hnd
    have hnot {key : ParticipantKey} (hkey : row.participantKey ≠ key) :
        row.key ≠ (event.eventId, key) := fun heq => hkey (Prod.mk.inj heq).2
    rw [tradedRow, if_neg (hnot hnp), if_neg (hnot hnd)]
  rw [answerQueue_eq, queueMembers_swap hrows, List.map_congr_left hsame, List.map_id',
    answerQueue_eq, List.map_map]
  apply List.map_congr_left
  intro row hrow
  obtain ⟨hnp, hnd⟩ := hother row (mem_sortBy.mp hrow)
  exact (Equiv.swap_apply_of_ne_of_ne hnp hnd).symm

/-- Two rows that take over each other's queue time trade their places exactly if nobody stands
between them. -/
theorem Nominated.traded_iff (h : Nominated event t a promoted demoted)
    (hsettled : ∀ row ∈ t.rows, Settled row)
    (hrows : t'.rows = t.rows.map (tradedRow event.eventId a now)) :
    Traded event (t.listForEvent event.eventId) (t'.listForEvent event.eventId)
        promoted.participantKey demoted.participantKey ↔
      Unambiguous (answerQueue event (t.listForEvent event.eventId) promoted.answerId)
        promoted demoted := by
  have hmembers : Unambiguous (answerQueue event (t.listForEvent event.eventId) promoted.answerId)
      promoted demoted ↔
        Unambiguous (queueMembers event t promoted.answerId) promoted demoted := by
    rw [answerQueue_eq]
    simp only [Unambiguous, mem_sortBy]
  have hrank : Ranks (fun row => queueKey (tradedRow event.eventId a now row))
      (queueMembers event t promoted.answerId) := by
    intro u hu v hv hkey
    apply eq_of_participantKey hu hv
    rw [← participantKey_tradedRow event.eventId a now u, ← participantKey_tradedRow event.eventId a now v]
    exact congrArg (fun k => (ofLex k).2) hkey
  have hown := h.ordered_iff now hsettled
  have hsorted := sortBy_eq_map_swap ranks_queueMembers hrank nodup_queueMembers h.mem_promoted
    h.mem_demoted
  rw [hmembers, ← hown, ← hsorted]
  have hqueue : (answerQueue event (t'.listForEvent event.eventId) promoted.answerId).map
        Registration.participantKey =
      ((answerQueue event (t.listForEvent event.eventId) promoted.answerId).map
        Registration.participantKey).map
          (Equiv.swap promoted.participantKey demoted.participantKey) ↔
      sortBy (fun row => queueKey (tradedRow event.eventId a now row))
          (queueMembers event t promoted.answerId) =
        (sortBy queueKey (queueMembers event t promoted.answerId)).map
          (Equiv.swap promoted demoted) := by
    rw [keys_answerQueue_swap hrows, answerQueue_eq, ← h.keys_swap fun row hrow => mem_sortBy.mp hrow]
    constructor
    · apply eq_of_map_participantKey
      · exact fun row hrow => mem_sortBy.mp hrow
      · intro row hrow
        obtain ⟨u, hu, rfl⟩ := List.mem_map.mp hrow
        exact swap_mem h.mem_promoted h.mem_demoted (mem_sortBy.mp hu)
    · exact fun heq => congrArg (List.map Registration.participantKey) heq
  rw [← hqueue]
  constructor
  · exact fun htraded => htraded promoted.answerId h.answered
  · intro hat answerId hanswered
    by_cases hasked : event.registrationQuestion.isSome = true
    · by_cases hsame : answerId = promoted.answerId
      · rw [hsame]
        exact hat
      · -- the queue of another answer
        apply h.keys_elsewhere hrows
        have hnot (row : Registration) (hrow : row ∈ queueMembers event t answerId)
            (other : Registration) (hother : other ∈ queueMembers event t promoted.answerId) :
            row.participantKey ≠ other.participantKey := by
          intro hkey
          obtain ⟨hmem, hevent, -, hanswer⟩ := mem_queueMembers.mp hrow
          obtain ⟨hmem', hevent', -, hanswer'⟩ := mem_queueMembers.mp hother
          have heq : row = other := Table.eq_of_key_eq hmem hmem' (Prod.ext (hevent.trans hevent'.symm) hkey)
          have hnone {answer : Option String} (h : answer.isSome) : answer ≠ none := by
            rintro rfl
            cases h
          apply hsame
          rw [← (hanswer hasked).resolve_left (hnone (hanswered hasked)), heq]
          exact (hanswer' hasked).resolve_left (hnone (h.answered hasked))
        exact fun row hrow =>
          ⟨hnot row hrow promoted h.mem_promoted, hnot row hrow demoted h.mem_demoted⟩
    · simpa only [answerQueue, hasked, if_false, Bool.false_eq_true] using hat

end Trades

/-! ## The choice -/

/-- A confirmed row of the reserve of its queue, and the last waiting row of the main part. -/
structure Chosen (event : Event) (rows : List Registration) (promoted demoted : Registration)
    (capacity : Nat) : Prop where
  offered : answerCapacity event promoted.answerId = some capacity
  reserve : promoted ∈ (answerQueue event rows promoted.answerId).drop capacity
  confirmed : promoted.attendanceStatus = .confirmed
  last : ∃ front back, (answerQueue event rows promoted.answerId).take capacity =
      front ++ demoted :: back ∧ demoted.attendanceStatus = .waiting ∧
    ∀ row ∈ back, row.attendanceStatus ≠ .waiting

theorem last_of_demotedRow {queue : List Registration} {capacity : Nat}
    (h : demotedRow queue capacity = some demoted) :
    ∃ front back, queue.take capacity = front ++ demoted :: back ∧
      demoted.attendanceStatus = .waiting ∧ ∀ row ∈ back, row.attendanceStatus ≠ .waiting := by
  obtain ⟨hwaiting, after, before, hsplit, hlater⟩ := List.find?_eq_some_iff_append.mp h
  refine ⟨before.reverse, after.reverse, ?_, by simpa using hwaiting, ?_⟩
  · rw [← List.reverse_reverse (queue.take capacity), hsplit]
    simp
  · intro row hrow
    simpa using hlater row (List.mem_reverse.mp hrow)

theorem RegistrationQuestion.mem_of_option {question : RegistrationQuestion} {option : AnswerOption}
    (h : question.option answerId = some option) :
    option ∈ question.options ∧ some option.optionId = answerId :=
  ⟨List.mem_of_find?_eq_some h, by simpa using List.find?_some h⟩

theorem RegistrationQuestion.option_of_mem {question : RegistrationQuestion} {option : AnswerOption}
    (h : option ∈ question.options) : question.option (some option.optionId) = some option := by
  have hsome : (question.option (some option.optionId)).isSome :=
    List.find?_isSome.mpr ⟨option, h, by simp⟩
  obtain ⟨found, hfound⟩ := Option.isSome_iff_exists.mp hsome
  obtain ⟨hmem, hid⟩ := mem_of_option hfound
  rw [hfound, List.inj_on_of_nodup_map question.distinct hmem h (Option.some.inj hid)]

/-- The main roster is the heads of the queues. -/
theorem mem_mainRoster_iff {rows : List Registration} {key : ParticipantKey} :
    key ∈ (mainRoster event rows).map Registration.participantKey ↔
      ∃ answerId capacity, (event.registrationQuestion.isSome → answerId.isSome) ∧
        answerCapacity event answerId = some capacity ∧
        key ∈ ((answerQueue event rows answerId).map Registration.participantKey).take capacity := by
  cases hquestion : event.registrationQuestion with
  | none =>
    simp only [mainRoster, answerCapacity, answerQueue, hquestion, Option.isSome_none,
      Bool.false_eq_true, if_false, List.map_take]
    constructor
    · exact fun h => ⟨none, event.playerAmount, nofun, rfl, h⟩
    · rintro ⟨-, capacity, -, hcapacity, h⟩
      exact Option.some.inj hcapacity ▸ h
  | some question =>
    simp only [mainRoster, answerCapacity, answerQueue, hquestion, Option.isSome_some, if_true,
      List.map_flatMap, List.mem_flatMap, List.map_take]
    constructor
    · rintro ⟨option, hoption, h⟩
      refine ⟨some option.optionId, option.playerAmount, fun _ => rfl, ?_, h⟩
      rw [RegistrationQuestion.option_of_mem hoption]
      rfl
    · rintro ⟨answerId, capacity, hanswered, hcapacity, h⟩
      obtain ⟨option, hfound, rfl⟩ := Option.map_eq_some_iff.mp hcapacity
      obtain ⟨hoption, hid⟩ := RegistrationQuestion.mem_of_option hfound
      exact ⟨option, hoption, hid ▸ h⟩

/-- A trade takes the promoted row into the main roster and the demoted one out of it. -/
theorem Chosen.exchanges {t' : Registrations} {capacity : Nat}
    (hchosen : Chosen event (t.listForEvent event.eventId) promoted demoted capacity)
    (h : Nominated event t a promoted demoted)
    (htraded : Traded event (t.listForEvent event.eventId) (t'.listForEvent event.eventId)
      promoted.participantKey demoted.participantKey) :
    promoted.participantKey ∈
        (mainRoster event (t'.listForEvent event.eventId)).map Registration.participantKey ∧
      demoted.participantKey ∉
        (mainRoster event (t'.listForEvent event.eventId)).map Registration.participantKey := by
  constructor
  · apply mem_mainRoster_iff.mpr
    refine ⟨promoted.answerId, capacity, h.answered, hchosen.offered, ?_⟩
    rw [htraded promoted.answerId h.answered, ← List.map_take, ← List.map_take]
    obtain ⟨front, back, hhead, -⟩ := hchosen.last
    rw [hhead, List.map_map]
    refine List.mem_map.mpr ⟨demoted, by simp, ?_⟩
    exact Equiv.swap_apply_right _ _
  · intro hmem
    obtain ⟨answerId, capacity', hanswered, hcapacity', hmem⟩ := mem_mainRoster_iff.mp hmem
    rw [htraded answerId hanswered, ← List.map_take, ← List.map_take, List.map_map] at hmem
    obtain ⟨row, hrow, hkey⟩ := List.mem_map.mp hmem
    have hpromoted : row.participantKey = promoted.participantKey := by
      have hback := congrArg (Equiv.swap promoted.participantKey demoted.participantKey) hkey
      rwa [Function.comp_apply, Equiv.swap_apply_self, Equiv.swap_apply_right] at hback
    -- the promoted row would stand in the head of its queue before
    have hmember : row ∈ queueMembers event t answerId := by
      rw [answerQueue_eq] at hrow
      exact mem_sortBy.mp (List.mem_of_mem_take hrow)
    obtain ⟨hstored, hevent, -, hanswer⟩ := mem_queueMembers.mp hmember
    obtain rfl : row = promoted :=
      Table.eq_of_key_eq hstored (Registrations.mem_of_get h.promoted_stored)
        (Prod.ext (hevent.trans (Prod.mk.inj h.keys.1).1.symm) hpromoted)
    have hqueue : answerQueue event (t.listForEvent event.eventId) answerId =
          answerQueue event (t.listForEvent event.eventId) row.answerId ∧
        answerCapacity event answerId = answerCapacity event row.answerId := by
      cases hquestion : event.registrationQuestion with
      | none => simp [answerQueue, answerCapacity, hquestion]
      | some question =>
        have hasked : event.registrationQuestion.isSome := by rw [hquestion]; rfl
        have hsome : answerId ≠ none := by
          rintro rfl
          exact nomatch hanswered hasked
        rw [(hanswer hasked).resolve_left hsome]
        exact ⟨rfl, rfl⟩
    rw [hqueue.2, hchosen.offered] at hcapacity'
    obtain rfl := Option.some.inj hcapacity'
    rw [hqueue.1] at hrow
    have hnodup : (answerQueue event (t.listForEvent event.eventId) row.answerId).Nodup := by
      rw [answerQueue_eq]
      exact nodup_sortBy.mpr nodup_queueMembers
    rw [← List.take_append_drop capacity
      (answerQueue event (t.listForEvent event.eventId) row.answerId)] at hnodup
    exact (List.nodup_append.mp hnodup).2.2 row hrow row hchosen.reserve rfl

end LarpBot
