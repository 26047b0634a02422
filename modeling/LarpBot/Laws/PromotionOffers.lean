import LarpBot.Application.EventAdministration
import LarpBot.Laws.QuestionRosters
import LarpBot.Laws.ReservePromotions
import LarpBot.Laws.TelegramHandles

/-!
# Offers of a promotion

The dialogue offers a confirmed player of the reserve for promotion after its own look at the rosters,
and the worker looks again before it trades two places. The two looks are at different things: the
dialogue asks who is in the main roster and who is in the reserve, the worker counts places in the
queue of one answer. Both find out whether there is a trade to make (`canPromote_iff`,
`does_promoteReserveParticipant`), so what is offered is carried out (`promotion_agrees`).

The gate for archived games and for authors who do not lead the game stands elsewhere in the dialogue,
and is not part of the offer.
-/

namespace LarpBot

open Atomic Act

/-- There is a trade of places that takes the player into the main roster. -/
def Promotable (event : Event) (rows : List Registration) (participantKey : ParticipantKey) : Prop :=
  ∃ promoted ∈ rows, promoted.participantKey = participantKey ∧ isActive promoted ∧
    ∃ demoted capacity, Chosen event rows promoted demoted capacity

variable {event : Event} {rows : List Registration} {row : Registration} {key : ParticipantKey}
  {answerId : Option String}

/-! ## Main roster and queues -/

/-- The main roster among the rows with an answer is the head of the queue of the answer. -/
theorem exists_mainRoster_iff (event : Event) (rows : List Registration) (answerId : Option String)
    (p : Registration → Prop) :
    (∃ row ∈ mainRoster event rows, p row ∧
      (event.registrationQuestion = none ∨ row.answerId = answerId)) ↔
    ∃ capacity, answerCapacity event answerId = some capacity ∧
      ∃ row ∈ (answerQueue event rows answerId).take capacity, p row := by
  cases hquestion : event.registrationQuestion with
  | none => simp [mainRoster, answerCapacity, answerQueue, hquestion]
  | some question =>
    simp only [mainRoster_split hquestion, answerCapacity, answerQueue, hquestion, Option.isSome_some,
      if_true, reduceCtorEq, false_or, List.mem_flatMap]
    constructor
    · rintro ⟨row, ⟨option, hoption, hhead⟩, hp, hanswer⟩
      have hid : some option.optionId = answerId := by
        rw [← hanswer, answerId_of_optionHead hhead]
      refine ⟨option.playerAmount, ?_, row, ?_, hp⟩
      · rw [← hid, RegistrationQuestion.option_of_mem hoption]
        rfl
      · rwa [← hid]
    · rintro ⟨capacity, hcapacity, row, hrow, hp⟩
      obtain ⟨option, hfound, rfl⟩ := Option.map_eq_some_iff.mp hcapacity
      obtain ⟨hoption, hid⟩ := RegistrationQuestion.mem_of_option hfound
      have hhead : row ∈ optionHead rows option := by
        rw [← hid] at hrow
        exact hrow
      exact ⟨row, ⟨option, hoption, hhead⟩, hp, (answerId_of_optionHead hhead).trans hid⟩

/-- A row of the main roster stands in the head of its own queue. -/
theorem mem_mainRoster_own : row ∈ mainRoster event rows ↔
    ∃ capacity, answerCapacity event row.answerId = some capacity ∧
      row ∈ (answerQueue event rows row.answerId).take capacity := by
  have h := exists_mainRoster_iff event rows row.answerId (· = row)
  constructor
  · intro hrow
    obtain ⟨capacity, hcapacity, _, hhead, rfl⟩ := h.mp ⟨row, hrow, rfl, .inr rfl⟩
    exact ⟨capacity, hcapacity, hhead⟩
  · rintro ⟨capacity, hcapacity, hhead⟩
    obtain ⟨_, hrow, rfl, -⟩ := h.mpr ⟨capacity, hcapacity, row, hhead, rfl⟩
    exact hrow

theorem mem_answerQueue : row ∈ answerQueue event rows row.answerId ↔ row ∈ rows ∧ isActive row := by
  rw [answerQueue, mem_activeQueue]
  cases event.registrationQuestion <;> simp

theorem mem_of_mem_mainRoster (h : row ∈ mainRoster event rows) : row ∈ rows ∧ isActive row := by
  obtain ⟨capacity, -, hhead⟩ := mem_mainRoster_own.mp h
  exact mem_answerQueue.mp (List.mem_of_mem_take hhead)

theorem mem_reserveRoster : row ∈ reserveRoster event rows ↔ row ∈ rows ∧ isActive row ∧
    row.participantKey ∉ (mainRoster event rows).map Registration.participantKey := by
  rw [reserveRoster, List.mem_filter, decide_eq_true_eq, mem_activeQueue]
  simp [and_assoc]

/-- A place in a queue is behind the capacity if the row is. -/
theorem le_place_iff {queue : List Registration} {capacity place : Nat} (hqueue : queue.Nodup)
    (hplace : queue[place]? = some row) : capacity ≤ place ↔ row ∈ queue.drop capacity := by
  constructor
  · intro hle
    have hat : (queue.drop capacity)[place - capacity]? = some row := by
      rw [List.getElem?_drop, Nat.add_sub_cancel' hle, hplace]
    exact List.mem_of_getElem? hat
  · intro hdrop
    by_contra hlt
    have hat : (queue.take capacity)[place]? = some row := by
      rw [List.getElem?_take_of_lt (not_le.mp hlt), hplace]
    rw [← List.take_append_drop capacity queue] at hqueue
    exact (List.nodup_append.mp hqueue).2.2 row (List.mem_of_getElem? hat) row hdrop rfl

section Keys

variable (hkeys : (rows.map Registration.participantKey).Nodup)
include hkeys

theorem eq_of_key {u v : Registration} (hu : u ∈ rows) (hv : v ∈ rows)
    (h : u.participantKey = v.participantKey) : u = v :=
  List.inj_on_of_nodup_map hkeys hu hv h

/-- The row of a player is looked up in any part of the rows that holds it. -/
theorem find?_of_mem {l : List Registration} (hl : ∀ u ∈ l, u ∈ rows) (hrow : row ∈ l)
    (hkey : row.participantKey = key) : l.find? (·.participantKey = key) = some row := by
  have hsome : (l.find? (·.participantKey = key)).isSome :=
    List.find?_isSome.mpr ⟨row, hrow, by simpa using hkey⟩
  obtain ⟨found, hfound⟩ := Option.isSome_iff_exists.mp hsome
  have hfoundKey : found.participantKey = key := by simpa using List.find?_some hfound
  rw [hfound, eq_of_key hkeys (hl found (List.mem_of_find?_eq_some hfound)) (hl row hrow)
    (hfoundKey.trans hkey.symm)]

theorem find?_active {l : List Registration} (hl : ∀ u, u ∈ l ↔ u ∈ rows ∧ isActive u) :
    l.find? (·.participantKey = key) = some row ↔
      row ∈ rows ∧ isActive row ∧ row.participantKey = key := by
  constructor
  · intro hfind
    obtain ⟨hmem, hactive⟩ := (hl row).mp (List.mem_of_find?_eq_some hfind)
    exact ⟨hmem, hactive, by simpa using List.find?_some hfind⟩
  · rintro ⟨hmem, hactive, hkey⟩
    exact find?_of_mem hkeys (fun u hu => ((hl u).mp hu).1) ((hl row).mpr ⟨hmem, hactive⟩) hkey

theorem findIdx?_of_mem {l : List Registration} (hl : ∀ u ∈ l, u ∈ rows) (hrow : row ∈ l)
    (hkey : row.participantKey = key) :
    ∃ place, l.findIdx? (·.participantKey = key) = some place ∧ l[place]? = some row := by
  have hsome : (l.findIdx? (·.participantKey = key)).isSome := by
    rw [List.findIdx?_isSome, List.any_eq_true]
    exact ⟨row, hrow, by simpa using hkey⟩
  obtain ⟨place, hplace⟩ := Option.isSome_iff_exists.mp hsome
  refine ⟨place, hplace, ?_⟩
  obtain ⟨hlt, hat, -⟩ := List.findIdx?_eq_some_iff_getElem.mp hplace
  rw [List.getElem?_eq_getElem hlt, eq_of_key hkeys (hl _ (List.getElem_mem hlt)) (hl row hrow)
    ((of_decide_eq_true hat).trans hkey.symm)]

/-- Beyond its capacity a queue holds the rows that are not in the main roster. -/
theorem mem_drop_iff {capacity : Nat} (hrow : row ∈ rows) (hactive : isActive row)
    (hcapacity : answerCapacity event row.answerId = some capacity) :
    row ∈ (answerQueue event rows row.answerId).drop capacity ↔
      row.participantKey ∉ (mainRoster event rows).map Registration.participantKey := by
  have hnodup : (answerQueue event rows row.answerId).Nodup := nodup_activeQueue hkeys.of_map _
  have hqueue : row ∈ answerQueue event rows row.answerId := mem_answerQueue.mpr ⟨hrow, hactive⟩
  rw [← List.take_append_drop capacity (answerQueue event rows row.answerId)] at hnodup hqueue
  have hmain : row.participantKey ∈ (mainRoster event rows).map Registration.participantKey ↔
      row ∈ (answerQueue event rows row.answerId).take capacity := by
    constructor
    · intro hmem
      obtain ⟨main, hmain, hkey⟩ := List.mem_map.mp hmem
      obtain rfl := eq_of_key hkeys (mem_of_mem_mainRoster hmain).1 hrow hkey
      obtain ⟨capacity', hcapacity', hhead⟩ := mem_mainRoster_own.mp hmain
      rw [hcapacity] at hcapacity'
      rwa [Option.some.inj hcapacity']
    · intro hhead
      exact List.mem_map_of_mem (mem_mainRoster_own.mpr ⟨capacity, hcapacity, hhead⟩)
  rw [hmain]
  constructor
  · exact fun hdrop htake => (List.nodup_append.mp hnodup).2.2 row htake row hdrop rfl
  · exact (List.mem_append.mp hqueue).resolve_left

/-! ## The offer -/

/-- Rows of one event in another order have the same queues. -/
theorem activeQueue_active {active : List Registration} (h : active.Perm (rows.filter isActive))
    (answerId : Option String) : activeQueue active answerId = activeQueue rows answerId := by
  apply sortBy_eq_of_perm
  · intro u hu v hv hkey
    exact eq_of_key hkeys (List.mem_of_mem_filter hu) (List.mem_of_mem_filter hv)
      (congrArg (fun k => (ofLex k).2) hkey)
  · refine (h.filter _).trans ?_
    rw [List.filter_filter]
    apply List.Perm.of_eq
    apply List.filter_congr
    intro row _
    cases isActive row <;> simp

/-- The dialogue offers a player exactly when there is a trade to make. -/
theorem canPromote_iff :
    canPromote event (sortBy Registrations.listKey (rows.filter isActive)) key = true ↔
      Promotable event rows key := by
  have hmem (u : Registration) :
      u ∈ sortBy Registrations.listKey (rows.filter isActive) ↔ u ∈ rows ∧ isActive u := by
    rw [mem_sortBy, List.mem_filter]
  have hqueue := activeQueue_active hkeys (sortBy_perm Registrations.listKey (rows.filter isActive))
  have hmain : mainRoster event (sortBy Registrations.listKey (rows.filter isActive)) =
      mainRoster event rows := by
    unfold mainRoster
    simp only [hqueue]
  have hreserve : reserveRoster event (sortBy Registrations.listKey (rows.filter isActive)) =
      reserveRoster event rows := by
    unfold reserveRoster
    rw [hmain, hqueue]
  unfold canPromote
  rw [hmain, hreserve]
  cases hfind : (sortBy Registrations.listKey (rows.filter isActive)).find? (·.participantKey = key) with
  | none =>
    simp only [Bool.false_eq_true, false_iff]
    rintro ⟨promoted, hrow, hkey, hon, -⟩
    rw [(find?_active hkeys hmem).mpr ⟨hrow, hon, hkey⟩] at hfind
    exact nomatch hfind
  | some selected =>
    obtain ⟨hrow, hon, hkey⟩ := (find?_active hkeys hmem).mp hfind
    have hwaits : (mainRoster event rows).any (fun row => row.attendanceStatus = .waiting &&
          (event.registrationQuestion.isNone || row.answerId = selected.answerId)) = true ↔
        ∃ capacity, answerCapacity event selected.answerId = some capacity ∧
          ∃ row ∈ (answerQueue event rows selected.answerId).take capacity,
            row.attendanceStatus = .waiting := by
      rw [← exists_mainRoster_iff event rows selected.answerId (·.attendanceStatus = .waiting),
        List.any_eq_true]
      simp [Option.isNone_iff_eq_none]
    have hstands : ((sortBy Registrations.listKey (reserveRoster event rows)).any fun row =>
          row.participantKey = key && row.attendanceStatus = .confirmed) = true ↔
        selected.participantKey ∉ (mainRoster event rows).map Registration.participantKey ∧
          selected.attendanceStatus = .confirmed := by
      rw [List.any_eq_true]
      simp only [mem_sortBy, mem_reserveRoster, Bool.and_eq_true, decide_eq_true_eq]
      constructor
      · rintro ⟨row, ⟨hrow', -, hout⟩, hkey', hconfirmed⟩
        obtain rfl := eq_of_key hkeys hrow hrow' (hkey.trans hkey'.symm)
        exact ⟨hout, hconfirmed⟩
      · rintro ⟨hout, hconfirmed⟩
        exact ⟨selected, ⟨hrow, hon, hout⟩, hkey, hconfirmed⟩
    dsimp only
    rw [Bool.and_eq_true, hwaits, hstands]
    constructor
    · rintro ⟨⟨capacity, hcapacity, waiting, hhead, hwaiting⟩, hout, hconfirmed⟩
      have hsome : (demotedRow (answerQueue event rows selected.answerId) capacity).isSome :=
        List.find?_isSome.mpr ⟨waiting, List.mem_reverse.mpr hhead, by simpa using hwaiting⟩
      obtain ⟨demoted, hdemoted⟩ := Option.isSome_iff_exists.mp hsome
      exact ⟨selected, hrow, hkey, hon, demoted, capacity, hcapacity,
        (mem_drop_iff hkeys hrow hon hcapacity).mpr hout, hconfirmed, last_of_demotedRow hdemoted⟩
    · rintro ⟨promoted, hrow', hkey', -, demoted, capacity, hchosen⟩
      obtain rfl := eq_of_key hkeys hrow' hrow (hkey'.trans hkey.symm)
      obtain ⟨front, back, hhead, hwaiting, -⟩ := hchosen.last
      refine ⟨⟨capacity, hchosen.offered, demoted, ?_, hwaiting⟩,
        (mem_drop_iff hkeys hrow hon hchosen.offered).mp hchosen.reserve, hchosen.confirmed⟩
      rw [hhead]
      exact List.mem_append_right front List.mem_cons_self

end Keys

/-! ## A command that was carried out before -/

/-- The command has recorded this promotion before, and the player still stands in the main roster. -/
structure Replayed (command : OrderedRegistrationCommand) (event : Event) (rows : List Registration)
    (participantKey : ParticipantKey) : Prop where
  recorded : event.lastParticipantRemovalOperationId = some command.operationId
  entry : siftSnapshotEntry .promoted participantKey ∈ event.participantRemovalKeys
  current : ∃ row ∈ mainRoster event rows,
    row.participantKey = participantKey ∧ row.attendanceStatus = .confirmed

theorem parseSiftSnapshotEntry_promoted (key : ParticipantKey) :
    parseSiftSnapshotEntry (siftSnapshotEntry .promoted key) = some (.promoted, key) := by
  have hafter : afterPrefix siftPromotedPrefix (siftSnapshotEntry .promoted key) =
      some (String.ofList key.toList) := afterPrefix_append String.toList_append
  rw [parseSiftSnapshotEntry, hafter, String.ofList_toList]

/-- A queue is its own queue. -/
theorem answerQueue_answerQueue (answerId : Option String) :
    answerQueue event (answerQueue event rows answerId) answerId = answerQueue event rows answerId := by
  have hall : ∀ row ∈ answerQueue event rows answerId, (isActive row &&
      ((if event.registrationQuestion.isSome then answerId else none).isNone ||
        row.answerId = if event.registrationQuestion.isSome then answerId else none)) = true := by
    intro row hrow
    exact (List.mem_filter.mp (mem_sortBy.mp hrow)).2
  rw [answerQueue, activeQueue, List.filter_eq_self.mpr hall]
  exact sortBy_of_pairwise (sortBy_pairwise _ _)

/-- The worker looks for the promotion in the queue of the player's answer only. -/
theorem mem_currentSiftEntries_iff (hkeys : (rows.map Registration.participantKey).Nodup)
    (hrow : row ∈ rows) (hactive : isActive row) (hkey : row.participantKey = key)
    (entries : List String) :
    siftSnapshotEntry .promoted key ∈
        currentSiftEntries entries (answerQueue event rows row.answerId) event ↔
      siftSnapshotEntry .promoted key ∈ entries ∧ ∃ row ∈ mainRoster event rows,
        row.participantKey = key ∧ row.attendanceStatus = .confirmed := by
  have hqueue : row ∈ answerQueue event rows row.answerId := mem_answerQueue.mpr ⟨hrow, hactive⟩
  have hsub : ∀ u ∈ answerQueue event rows row.answerId, u ∈ rows :=
    fun u hu => (mem_activeQueue.mp hu).1
  have hmain : row ∈ mainRoster event (answerQueue event rows row.answerId) ↔
      row ∈ mainRoster event rows := by
    rw [mem_mainRoster_own, mem_mainRoster_own, answerQueue_answerQueue]
  unfold currentSiftEntries
  rw [List.mem_filter, parseSiftSnapshotEntry_promoted]
  simp only [find?_of_mem hkeys hsub hqueue hkey, Option.map_some, Option.some.injEq, Bool.and_eq_true,
    decide_eq_true_eq, List.any_eq_true, activeMainRoster]
  apply and_congr_right
  intro _
  constructor
  · rintro ⟨hconfirmed, main, hmember, hmainKey⟩
    obtain rfl := eq_of_key hkeys hrow (hsub main (mem_of_mem_mainRoster hmember).1)
      (hkey.trans hmainKey.symm)
    exact ⟨row, hmain.mp hmember, hkey, hconfirmed⟩
  · rintro ⟨main, hmember, hmainKey, hconfirmed⟩
    obtain rfl := eq_of_key hkeys hrow (mem_of_mem_mainRoster hmember).1 (hkey.trans hmainKey.symm)
    exact ⟨hconfirmed, row, hmain.mpr hmember, hkey⟩

/-! ## The worker -/

/-- `OperationNotAllowed`. -/
def Failure.IsRefusal (failure : Failure) : Prop :=
  ∃ text, failure = .domain ⟨.operationNotAllowed, text⟩

section Worker

variable {bot : Deployment} {command : OrderedRegistrationCommand} {admits : Input → Prop} {w : World}

/-- Recorded moves leave the table of the event alone. -/
theorem does_recordMoves (moves : List String) (hevent : w.events.get event.eventId = some event) :
    does admits (fun _ w' => ∃ stored, w'.events.get event.eventId = some stored ∧
        stored.publicTablePublicUrl = event.publicTablePublicUrl)
      (fun _ _ => False) (recordMoves command event moves) w := by
  unfold recordMoves
  split
  · refine does_events fun now => ?_
    show does admits _ _
      (value (Events.addParticipantRemovalKeys w.events now event.eventId command.operationId moves).1)
      { w with events := (Events.addParticipantRemovalKeys w.events now event.eventId
          command.operationId moves).2 }
    rw [Events.addParticipantRemovalKeys, Events.existing_of_get hevent]
    show ∃ stored, Events.get _ event.eventId = some stored ∧ _
    rw [Events.get_modify hevent]
    refine ⟨_, rfl, ?_⟩
    dsimp only
    split <;> rfl
  · refine does_events fun now => ?_
    show does admits _ _
      (value (Events.setParticipantRemoval w.events now event.eventId command.operationId moves).1)
      { w with events := (Events.setParticipantRemoval w.events now event.eventId
          command.operationId moves).2 }
    rw [Events.setParticipantRemoval, Events.existing_of_get hevent]
    show ∃ stored, Events.get _ event.eventId = some stored ∧ _
    rw [Events.get_modify hevent]
    refine ⟨_, rfl, ?_⟩
    split <;> rfl

/-- A trade is made for a confirmed row behind the capacity while a row before it waits. -/
theorem does_promoteReserve (hadmits : ∀ i, admits i → Reliable i)
    (hevent : w.events.get event.eventId = some event) {queue : List Registration} {capacity place : Nat}
    (hplace : queue.findIdx? (·.participantKey = key) = some place) (hrow : queue[place]? = some row) :
    does admits
      (fun _ _ => capacity ≤ place ∧ row.attendanceStatus = .confirmed ∧
        (demotedRow queue capacity).isSome)
      (fun failure _ => failure.IsRefusal ∧ ¬ (capacity ≤ place ∧ row.attendanceStatus = .confirmed ∧
        (demotedRow queue capacity).isSome))
      (promoteReserve bot command event queue capacity key) w := by
  unfold promoteReserve
  rw [hplace]
  refine does_refuseIf (fun hearly => ⟨⟨_, rfl⟩, fun h => ?_⟩) fun hlate => ?_
  · rw [decide_eq_true_eq] at hearly
    omega
  rw [hrow]
  refine does_refuseIf (fun hother => ⟨⟨_, rfl⟩, fun h => ?_⟩) fun hconfirmed => ?_
  · rw [decide_eq_true_eq] at hother
    exact hother h.2.1
  rw [decide_eq_false_iff_not] at hlate
  rw [decide_eq_false_iff_not, not_not] at hconfirmed
  cases hdemoted : demotedRow queue capacity with
  | none => exact ⟨⟨_, rfl⟩, fun h => nomatch h.2.2⟩
  | some demoted =>
    have hdone : capacity ≤ place ∧ row.attendanceStatus = .confirmed ∧
        (some demoted : Option Registration).isSome := ⟨not_lt.mp hlate, hconfirmed, rfl⟩
    refine does_seq (does_recordMoves _ hevent) (fun _ _ h => h.elim) ?_
    rintro _ w₁ ⟨stored, hstored, htable⟩
    refine does_registrations fun now => ?_
    refine does_seq (does_refresh bot hadmits hstored htable) (fun _ _ h => h.elim) ?_
    exact fun _ _ _ => hdone

/-- The answer of a row that is not an answer of the question. -/
def Failure.IsMissingAnswer (failure : Failure) : Prop :=
  failure = .fault .missingAnswer

/-- The worker succeeds exactly when there is a trade to make, or when the command has made it before. -/
theorem does_promoteReserveParticipant (hadmits : ∀ i, admits i → Reliable i)
    (hkey : command.participantKey = some key) (hevent : w.events.get event.eventId = some event) :
    does admits
      (fun _ _ => Promotable event (w.registrations.listForEvent event.eventId) key ∨
        Replayed command event (w.registrations.listForEvent event.eventId) key)
      (fun failure _ => (failure.IsRefusal ∨ failure.IsMissingAnswer) ∧
        ¬ Promotable event (w.registrations.listForEvent event.eventId) key ∧
        ¬ Replayed command event (w.registrations.listForEvent event.eventId) key)
      (promoteReserveParticipant bot command event) w := by
  have hkeys := keys_listForEvent w.registrations event.eventId
  have hactive (u : Registration) : u ∈ activeQueue (w.registrations.listForEvent event.eventId) ↔
      u ∈ w.registrations.listForEvent event.eventId ∧ isActive u := by
    rw [mem_activeQueue]
    simp
  unfold promoteReserveParticipant
  rw [hkey]
  refine does_listForEvent ?_
  cases hfind : (activeQueue (w.registrations.listForEvent event.eventId)).find?
      (·.participantKey = key) with
  | none =>
    have hgone : ∀ row ∈ w.registrations.listForEvent event.eventId, isActive row →
        row.participantKey ≠ key := by
      intro row hrow hon hrowKey
      rw [(find?_active hkeys hactive).mpr ⟨hrow, hon, hrowKey⟩] at hfind
      exact nomatch hfind
    refine ⟨.inl ⟨_, rfl⟩, ?_, ?_⟩
    · rintro ⟨promoted, hrow, hrowKey, hon, -⟩
      exact hgone promoted hrow hon hrowKey
    · rintro ⟨-, -, main, hmain, hmainKey, -⟩
      obtain ⟨hrow, hon⟩ := mem_of_mem_mainRoster hmain
      exact hgone main hrow hon hmainKey
  | some selected =>
    obtain ⟨hrow, hon, hrowKey⟩ := (find?_active hkeys hactive).mp hfind
    have hown {u : Registration} (hu : u ∈ w.registrations.listForEvent event.eventId)
        (huKey : u.participantKey = key) : u = selected :=
      eq_of_key hkeys hu hrow (huKey.trans hrowKey.symm)
    cases hcapacity : answerCapacity event selected.answerId with
    | none =>
      dsimp only
      rw [hcapacity]
      refine ⟨.inr rfl, ?_, ?_⟩
      · rintro ⟨promoted, hpromoted, hpromotedKey, -, demoted, capacity, hchosen⟩
        rw [hown hpromoted hpromotedKey] at hchosen
        exact nomatch hcapacity.symm.trans hchosen.offered
      · rintro ⟨-, -, main, hmain, hmainKey, -⟩
        obtain ⟨capacity, hsome, -⟩ := mem_mainRoster_own.mp hmain
        rw [hown (mem_of_mem_mainRoster hmain).1 hmainKey] at hsome
        exact nomatch hcapacity.symm.trans hsome
    | some capacity =>
      have hqueue : (if event.registrationQuestion.isSome = true then
            activeQueue (activeQueue (w.registrations.listForEvent event.eventId)) selected.answerId
          else activeQueue (w.registrations.listForEvent event.eventId)) =
          answerQueue event (w.registrations.listForEvent event.eventId) selected.answerId := by
        unfold answerQueue
        split
        · exact activeQueue_active hkeys (perm_activeQueue _) _
        · rfl
      dsimp only
      rw [hcapacity]
      dsimp only
      rw [hqueue]
      have hsub : ∀ u ∈ answerQueue event (w.registrations.listForEvent event.eventId) selected.answerId,
          u ∈ w.registrations.listForEvent event.eventId := fun u hu => (mem_activeQueue.mp hu).1
      have hselected : selected ∈ answerQueue event (w.registrations.listForEvent event.eventId)
          selected.answerId := mem_answerQueue.mpr ⟨hrow, hon⟩
      have hreplayed : Replayed command event (w.registrations.listForEvent event.eventId) key ↔
          event.lastParticipantRemovalOperationId = some command.operationId ∧
            siftSnapshotEntry .promoted key ∈ currentSiftEntries event.participantRemovalKeys
              (answerQueue event (w.registrations.listForEvent event.eventId) selected.answerId) event := by
        rw [mem_currentSiftEntries_iff hkeys hrow hon hrowKey]
        exact ⟨fun h => ⟨h.recorded, h.entry, h.current⟩, fun h => ⟨h.1, h.2.1, h.2.2⟩⟩
      split
      · next hagain =>
        rw [Bool.and_eq_true, decide_eq_true_eq, decide_eq_true_eq] at hagain
        refine does_seq (does_refresh bot hadmits hevent rfl) (fun _ _ h => h.elim) ?_
        exact fun _ _ _ => .inr (hreplayed.mpr hagain)
      · next hfresh =>
        rw [Bool.and_eq_true, decide_eq_true_eq, decide_eq_true_eq, ← hreplayed] at hfresh
        obtain ⟨place, hplace, hat⟩ := findIdx?_of_mem hkeys hsub hselected hrowKey
        have htrade : Promotable event (w.registrations.listForEvent event.eventId) key ↔
            capacity ≤ place ∧ selected.attendanceStatus = .confirmed ∧
              (demotedRow (answerQueue event (w.registrations.listForEvent event.eventId)
                selected.answerId) capacity).isSome := by
          rw [le_place_iff (nodup_activeQueue hkeys.of_map _) hat]
          constructor
          · rintro ⟨promoted, hpromoted, hpromotedKey, -, demoted, capacity', hchosen⟩
            rw [hown hpromoted hpromotedKey] at hchosen
            obtain rfl := Option.some.inj (hcapacity.symm.trans hchosen.offered)
            refine ⟨hchosen.reserve, hchosen.confirmed, ?_⟩
            obtain ⟨front, back, hhead, hwaiting, -⟩ := hchosen.last
            apply List.find?_isSome.mpr
            exact ⟨demoted, by simp [hhead], by simpa using hwaiting⟩
          · rintro ⟨hdrop, hconfirmed, hsome⟩
            obtain ⟨demoted, hdemoted⟩ := Option.isSome_iff_exists.mp hsome
            exact ⟨selected, hrow, hrowKey, hon, demoted, capacity, hcapacity, hdrop, hconfirmed,
              last_of_demotedRow hdemoted⟩
        refine does_mono (does_promoteReserve hadmits hevent hplace hat) ?_ ?_
        · exact fun _ _ h => .inl (htrade.mpr h)
        · exact fun _ _ h => ⟨.inl h.1, fun hoffer => h.2 (htrade.mp hoffer), hfresh⟩

/-- The author leads the game, or stands on the admin list. -/
def Leads (command : OrderedRegistrationCommand) (w : World) (admits : Input → Prop) : Prop :=
  ∃ identity ∈ w.users.identitiesOf command.platform command.platformUserId,
    identity ∈ w.leaders.listLeaders command.eventId ∨
      ∀ i, admits i → i (.isAdmin identity.platform identity.platformUserId) = some true

theorem does_anyAdmin (hadmits : ∀ i, admits i → Reliable i) {identities : List BotIdentity}
    {identity : BotIdentity} (hmem : identity ∈ identities)
    (hadmin : ∀ i, admits i → i (.isAdmin identity.platform identity.platformUserId) = some true) :
    does admits (fun answer w' => w' = w ∧ answer = true) (fun _ _ => False) (anyAdmin identities) w := by
  refine does_seq (does_traverse (P := fun seen answers w' => w' = w ∧ (identity ∈ seen → true ∈ answers))
    (X := fun _ _ => False) ?_ ⟨rfl, fun h => absurd h List.not_mem_nil⟩) (fun _ _ h => h) ?_
  · rintro seen answers asked - w' ⟨rfl, hseen⟩
    refine does_outside (fun _ => rfl) fun i hi => ?_
    obtain ⟨answer, hanswer⟩ := Option.ne_none_iff_exists'.mp
      (hadmits i hi (.isAdmin asked.platform asked.platformUserId) (by simp))
    show does admits _ _ (present "is_admin" _) w'
    rw [hanswer]
    refine ⟨rfl, fun h => ?_⟩
    rcases List.mem_append.mp h with h | h
    · exact List.mem_append_left _ (hseen h)
    · obtain rfl := List.mem_singleton.mp h
      rw [hadmin i hi] at hanswer
      rw [← Option.some.inj hanswer]
      exact List.mem_append_right _ (List.mem_singleton_self true)
  · rintro answers w' ⟨rfl, hanswers⟩
    exact ⟨rfl, List.any_eq_true.mpr ⟨true, hanswers hmem, rfl⟩⟩

theorem does_requireEventLeader (hadmits : ∀ i, admits i → Reliable i) (hleads : Leads command w admits) :
    does admits (fun _ w' => w' = w) (fun _ _ => False) (requireEventLeader command) w := by
  obtain ⟨identity, hmem, hallowed⟩ := hleads
  refine does_seq (does_identitiesForLocalUser _ _) (fun _ _ h => h) ?_
  rintro identities w' ⟨rfl, rfl⟩
  refine does_call fun i _ => ?_
  show does admits _ _ (if (w'.users.identitiesOf command.platform command.platformUserId).any
    (· ∈ w'.leaders.listLeaders command.eventId) then _ else _) w'
  split
  · rfl
  · next hnone =>
    rcases hallowed with hleader | hadmin
    · exact absurd (List.any_eq_true.mpr ⟨identity, hmem, by simpa using hleader⟩) hnone
    · refine does_seq (does_anyAdmin hadmits hmem hadmin) (fun _ _ h => h) ?_
      rintro _ w' ⟨rfl, rfl⟩
      rfl

/-- The worker on an event that was migrated and is not archived. -/
theorem does_apply_promotion (bot : Deployment) (hadmits : ∀ i, admits i → Reliable i)
    (hoperation : command.operation = .promoteReserveParticipant)
    (hkey : command.participantKey = some key) (hevent : w.events.get command.eventId = some event)
    (hmigrated : event.registrationsMigratedAt.isSome) (hlisted : event.archivedAt = none)
    (hleads : Leads command w admits) :
    does admits
      (fun _ _ => Promotable event (w.registrations.listForEvent command.eventId) key ∨
        Replayed command event (w.registrations.listForEvent command.eventId) key)
      (fun failure _ => (failure.IsRefusal ∨ failure.IsMissingAnswer) ∧
        ¬ Promotable event (w.registrations.listForEvent command.eventId) key ∧
        ¬ Replayed command event (w.registrations.listForEvent command.eventId) key)
      (apply bot command) w := by
  have hid := Events.eventId_of_get hevent
  refine does_getEvent ?_
  rw [hevent]
  show does admits _ _ (applyToEvent bot command event) w
  unfold applyToEvent
  rw [hoperation]
  dsimp only
  rw [hlisted]
  show does admits _ _ (applyToActive bot command event) w
  unfold applyToActive
  refine does_whenever (fun _ => ?_) fun hplain => ?_
  · refine does_seq (does_requireEventLeader hadmits hleads) (fun _ _ h => h.elim) ?_
    rintro _ w' rfl
    rw [hoperation]
    show does admits _ _ (applyToRoster bot command event) w'
    unfold applyToRoster ensureMigrated
    rw [if_pos hmigrated]
    rw [hoperation]
    show does admits _ _ (promoteReserveParticipant bot command event) w'
    rw [← hid] at hevent ⊢
    exact does_promoteReserveParticipant hadmits hkey hevent
  · rw [hoperation] at hplain
    exact nomatch hplain

end Worker

/-! ## Offer and promotion -/

/-- Whether there is a trade to make is asked of the question and the capacity only. -/
theorem Promotable.of_core {event' : Event} (h : Promotable event rows key)
    (hcore : event'.core = event.core) : Promotable event' rows key := by
  have hquestion : event'.registrationQuestion = event.registrationQuestion :=
    Event.eq_of_core Event.registrationQuestion (fun _ => rfl) hcore
  have hamount : event'.playerAmount = event.playerAmount := Event.eq_of_core Event.playerAmount (fun _ => rfl) hcore
  have hcapacity : answerCapacity event' = answerCapacity event := by
    funext answerId
    rw [answerCapacity, answerCapacity, hquestion, hamount]
  have hqueue : answerQueue event' rows = answerQueue event rows := by
    funext answerId
    rw [answerQueue, answerQueue, hquestion]
  obtain ⟨promoted, hrow, hkey, hactive, demoted, capacity, hchosen⟩ := h
  refine ⟨promoted, hrow, hkey, hactive, demoted, capacity, ?_, ?_, hchosen.confirmed, ?_⟩
  · rw [hcapacity]
    exact hchosen.offered
  · rw [hqueue]
    exact hchosen.reserve
  · rw [hqueue]
    exact hchosen.last

theorem Replayed.of_core {event' : Event} {command : OrderedRegistrationCommand}
    (h : Replayed command event rows key) (hcore : event'.core = event.core) :
    Replayed command event' rows key := by
  have hquestion : event'.registrationQuestion = event.registrationQuestion :=
    Event.eq_of_core Event.registrationQuestion (fun _ => rfl) hcore
  have hamount : event'.playerAmount = event.playerAmount := Event.eq_of_core Event.playerAmount (fun _ => rfl) hcore
  have hmain : mainRoster event' rows = mainRoster event rows := by
    rw [mainRoster, mainRoster, hquestion, hamount]
  have hentry := h.entry
  have hrecorded := h.recorded
  rw [← Event.eq_of_core Event.participantRemovalKeys (fun _ => rfl) hcore] at hentry
  rw [← Event.eq_of_core Event.lastParticipantRemovalOperationId (fun _ => rfl) hcore] at hrecorded
  refine ⟨hrecorded, hentry, ?_⟩
  rw [hmain]
  exact h.current

/-- The dialogue's look at the rosters answers whether there is a trade to make. -/
theorem does_canPromoteConfirmedReserve (bot : Deployment) (key : ParticipantKey)
    {admits : Input → Prop} {w : World} {eventId : EventId}
    (hadmits : ∀ i, admits i → Reliable i) (hevent : w.events.get eventId = some event) :
    does admits
      (fun offered w' => Maintains w w' ∧ w'.events.Has eventId (·.registrationsMigratedAt.isSome) ∧
        (offered = true ↔ Promotable event (w'.registrations.listForEvent eventId) key))
      (fun _ _ => False) (canPromoteConfirmedReserve bot eventId key) w := by
  have hid := Events.eventId_of_get hevent
  unfold canPromoteConfirmedReserve storedEvent
  refine does_getEvent ?_
  rw [hevent]
  show does admits _ _ (ensureMigrated bot event >>= _) w
  rw [← hid] at hevent
  refine does_seq (does_ensureMigrated bot hadmits hevent) (fun _ _ h => h) ?_
  rintro _ w₁ ⟨hmaintains, hmigrated⟩
  refine does_listForEvent ⟨hmaintains, ?_, canPromote_iff (keys_listForEvent _ _)⟩
  rwa [← hid]

/-- On a game that is not archived, for an author who may order it and while the integrations answer: the
dialogue offers a promotion exactly when the worker makes it. A command that has made it before
succeeds again. -/
theorem promotion_agrees (bot : Deployment) (command : OrderedRegistrationCommand) (key : ParticipantKey)
    (hoperation : command.operation = .promoteReserveParticipant)
    (hkey : command.participantKey = some key) {w : World}
    (hevent : w.events.get command.eventId = some event) (hlisted : event.archivedAt = none)
    {s s' : Nat → Input} (hs : ∀ n, Reliable (s n)) (hs' : ∀ n, Reliable (s' n))
    (hleads : Leads command w fun i => ∃ n, i = s' n) :
    ∃ offered, ((canPromoteConfirmedReserve bot command.eventId key).run storage s w).1 = .ok offered ∧
      let w₁ := ((canPromoteConfirmedReserve bot command.eventId key).run storage s w).2.2
      ((∃ result, ((apply bot command).run storage s' w₁).1 = .ok result) ↔
        offered = true ∨ Replayed command event (w₁.registrations.listForEvent command.eventId) key) ∧
      ∀ failure, ((apply bot command).run storage s' w₁).1 = .error failure →
        failure.IsRefusal ∨ failure.IsMissingAnswer := by
  obtain ⟨hok, hfail⟩ := run_of_does
    (does_canPromoteConfirmedReserve bot key (fun _ (h : Reliable _) => h) hevent) hs
  cases hasked : ((canPromoteConfirmedReserve bot command.eventId key).run storage s w).1 with
  | error failure => exact (hfail failure hasked).elim
  | ok offered =>
    refine ⟨offered, rfl, ?_⟩
    obtain ⟨hmaintains, ⟨event', hevent', hmigrated⟩, hoffered⟩ := hok offered hasked
    generalize ((canPromoteConfirmedReserve bot command.eventId key).run storage s w).2.2 = w₁ at *
    dsimp only
    obtain ⟨_, hget, hcore⟩ := hmaintains.get hevent
    obtain rfl := Option.some.inj (hevent'.symm.trans hget)
    have hlisted' : event'.archivedAt = none :=
      (Event.eq_of_core Event.archivedAt (fun _ => rfl) hcore).trans hlisted
    have hleads' : Leads command w₁ fun i => ∃ n, i = s' n := by
      unfold Leads at hleads ⊢
      rwa [hmaintains.users, hmaintains.leaders]
    obtain ⟨hdone, hrefused⟩ := run_of_does (does_apply_promotion bot
      (by rintro _ ⟨n, rfl⟩; exact hs' n) hoperation hkey hevent' hmigrated hlisted' hleads')
      (s := s') fun n => ⟨n, rfl⟩
    constructor
    · constructor
      · rintro ⟨result, hresult⟩
        rcases hdone result hresult with hoffer | hagain
        · exact .inl (hoffered.mpr (hoffer.of_core hcore.symm))
        · exact .inr (hagain.of_core hcore.symm)
      · intro hcase
        cases happlied : ((apply bot command).run storage s' w₁).1 with
        | ok result => exact ⟨result, rfl⟩
        | error failure =>
          obtain ⟨-, hno, hnot⟩ := hrefused failure happlied
          rcases hcase with hoffer | hagain
          · exact absurd ((hoffered.mp hoffer).of_core hcore) hno
          · exact absurd (hagain.of_core hcore) hnot
    · exact fun failure happlied => (hrefused failure happlied).1

/-! ## A place held by a waiting player -/

def heldGame (archivedAt : Option Time) : Event where
  eventId := "game"
  name := "Игра"
  playerAmount := 1
  status := .confirmationOpen
  registrationsMigratedAt := some 0
  archivedAt := archivedAt

/-- A player waits on the only place, and another one has confirmed in the reserve. -/
def heldPlace (archivedAt : Option Time) : World where
  events := ⟨[heldGame archivedAt], List.nodup_singleton _⟩
  leaders := ⟨[("game", ⟨.telegram, 9⟩)], by decide⟩
  registrations := ⟨[
    { eventId := "game", participantKey := "waiting", displayName := "Первый", wishPlay := "нет", createdAt := 1 },
    { eventId := "game", participantKey := "confirmed", displayName := "Второй", wishPlay := "нет",
      createdAt := 2, attendanceStatus := .confirmed }], by decide⟩

def promotionBy (author : Nat) : OrderedRegistrationCommand where
  operationId := "promotion"
  eventId := "game"
  operation := .promoteReserveParticipant
  platform := .telegram
  platformUserId := author
  participantKey := some "confirmed"

/-- The integrations of a good day. -/
def fairDay : Nat → Input :=
  fun _ => answering fun _ _ => .accepted

/-- Whether the player is offered for promotion in a world. -/
def offeredIn (w : World) : Option Bool :=
  ((canPromoteConfirmedReserve sampleBot "game" "confirmed").run storage fairDay w).1.toOption

/-- A command that is carried out in a world: whether it succeeds, and what it leaves. -/
def promotedIn (w : World) (author : Nat) : Bool × World :=
  let (result, _, w') := (apply sampleBot (promotionBy author)).run storage fairDay w
  (result.isOk, w')

theorem heldPlace_agrees :
    ∃ offered, ((canPromoteConfirmedReserve sampleBot "game" "confirmed").run storage fairDay
        (heldPlace none)).1 = .ok offered ∧
      let w₁ := ((canPromoteConfirmedReserve sampleBot "game" "confirmed").run storage fairDay
        (heldPlace none)).2.2
      ((∃ result, ((apply sampleBot (promotionBy 9)).run storage fairDay w₁).1 = .ok result) ↔
        offered = true ∨ Replayed (promotionBy 9) (heldGame none)
          (w₁.registrations.listForEvent "game") "confirmed") ∧
      ∀ failure, ((apply sampleBot (promotionBy 9)).run storage fairDay w₁).1 = .error failure →
        failure.IsRefusal ∨ failure.IsMissingAnswer :=
  promotion_agrees sampleBot (promotionBy 9) "confirmed" rfl rfl rfl rfl
    (fun _ => reliable_answering _) (fun _ => reliable_answering _)
    ⟨⟨.telegram, 9⟩, by decide, .inl (by decide)⟩

/-- The offer is for any game and any author, and it is gone once it was taken: of an archived game it is
refused by the worker, and so is that of a stranger; and a command that is carried out again
succeeds although nothing is offered any more. -/
theorem offer_differs :
    (offeredIn (heldPlace (some 3)) = some true ∧ (promotedIn (heldPlace (some 3)) 9).1 = false) ∧
    (offeredIn (heldPlace none) = some true ∧ (promotedIn (heldPlace none) 5).1 = false) ∧
    (offeredIn (promotedIn (heldPlace none) 9).2 = some false ∧
      (promotedIn (promotedIn (heldPlace none) 9).2 9).1 = true) := by
  decide +kernel

end LarpBot
