import LarpBot.Laws.Executions
import LarpBot.Adapters.DynamoRegistrations

/-!
# The limit of a transaction

A transaction holds at most a hundred actions, and each item that a method changes is one of them.
The methods that are about all rows of an event, alone on the tables, return exactly where these rows
are few enough; neither the number of players in the reserve nor that of the leaders is bounded.
-/

namespace LarpBot

open Atomic
open DynamoRepository

/-! ## Registrations -/

namespace RegistrationMethod

variable {tables : RegistrationItems} {e : EventId} {keys : List RegistrationKey}

/-- The rows that a method loads of the tables. -/
def rowsOf (tables : RegistrationItems) : RegistrationRows → List (Item RegistrationDocument)
  | .telegramProfile _ => []
  | .event e => tables.rows.filter fun item => item.document.key.1 = e
  | .items keys => keys.filterMap tables.find?

theorem loads_event {m : RegistrationMethod} (hm : m.rows = .event e) :
    dynamoRegistrations.Loads m tables (rowsOf tables (.event e)) := by
  have hrows : m.rowsForCall = Prog.ofCall (S := RegistrationRequests) (.query e) := by
    rw [rowsForCall, hm]
  show dynamoRegistrations.Reads m.rowsForCall tables _
  rw [hrows]
  refine reads_call fun i => ?_
  simp only [perform, rowsOf, Table.rows_filter, Option.some.injEq]

theorem loads_items {m : RegistrationMethod} (hm : m.rows = .items keys) :
    dynamoRegistrations.Loads m tables (rowsOf tables (.items keys)) := by
  have hrows : m.rowsForCall = (Prog.traverse
      (fun k => Prog.ofCall (S := RegistrationRequests) (.getItem k)) keys).bind
        fun found => .done (found.filterMap id) := by
    rw [rowsForCall, hm]
    rfl
  show dynamoRegistrations.Reads m.rowsForCall tables _
  rw [hrows]
  refine (Reads.traverse (g := tables.find?) fun k _ => reads_call fun i => rfl).bind ?_
  rw [List.filterMap_map]
  exact reads_done

theorem rowsOf_stored {rows : RegistrationRows} :
    ∀ item ∈ rowsOf tables rows, item ∈ tables.rows := by
  intro item hitem
  cases rows with
  | telegramProfile => exact absurd hitem List.not_mem_nil
  | event e => exact (List.mem_filter.mp hitem).1
  | items keys =>
    obtain ⟨k, -, hfound⟩ := List.mem_filterMap.mp hitem
    exact Table.mem_of_find? hfound

theorem rows_original_event : (dynamoRegistrations.original (rowsOf tables (.event e))).rows =
    tables.rows.filter fun item => item.document.key.1 = e := by
  have hall : (rowsOf tables (.event e)).filter (fun item => dynamoRegistrations.records item.document) =
      tables.rows.filter fun item => item.document.key.1 = e :=
    List.filter_eq_self.mpr fun _ _ => rfl
  rw [original, hall]
  exact Table.rows_ofList (tables.nodup.sublist (List.filter_sublist.map _))

/-- The memory repository that a method runs on. -/
abbrev loaded (rows : List (Item RegistrationDocument)) : RegistrationMemory :=
  RegistrationItems.load (dynamoRegistrations.original rows)

/-- The actions of a method that leaves the deliveries alone. -/
abbrev rewrites (rows : List (Item RegistrationDocument)) (after : Registrations) :
    List (Action RegistrationDocument RegistrationKey) :=
  delta (dynamoRegistrations.original rows) (RegistrationItems.desired ⟨after, (loaded rows).deliveries⟩)

/-- A method that leaves the deliveries alone and makes no row returns exactly if it does not change
too many. -/
theorem commits_of_run {m : RegistrationMethod} {rows : List (Item RegistrationDocument)}
    {answer : m.Ans} {after : Registrations} {size : Nat}
    (hload : dynamoRegistrations.Loads m tables rows) (hrows : ∀ item ∈ rows, item ∈ tables.rows)
    (hrun : ∀ now, m.run now (loaded rows) = .ok (answer, ⟨after, (loaded rows).deliveries⟩))
    (hafter : ∀ row ∈ after.rows, ∃ item ∈ rows, item.document.key = row.key)
    (hsize : (rewrites rows after).length = size) :
    dynamoRegistrations.Commits m tables ↔ size ≤ maxTransactionActions := by
  refine commits_iff hload fun now => ⟨answer, rewrites rows after, ?_, hsize, ?_⟩
  · rw [worksOut_eq_ok]
    exact ⟨_, hrun now, (List.append_nil _).symm⟩
  · have hupToDate : UpToDate (dynamoRegistrations.original rows)
        (RegistrationItems.desired ⟨after, (loaded rows).deliveries⟩) tables := by
      refine upToDate_original hrows fun document hdocument hunread => ?_
      rw [RegistrationItems.rows_desired] at hdocument
      obtain ⟨row, hrow, rfl⟩ := List.mem_map.mp hdocument
      obtain ⟨item, hitem, hkey⟩ := hafter row hrow
      have hfound : (dynamoRegistrations.original rows).find? row.key = some item :=
        hkey ▸ Table.find?_key ((mem_original hrows).mpr ⟨hitem, rfl⟩)
      exact absurd (hfound.symm.trans hunread) nofun
    exact hupToDate.committed

/-! ### The sift -/

/-- The waiting rows of a game. -/
def waitingRows (tables : RegistrationItems) (e : EventId) : Nat :=
  tables.rows.countP fun item => item.document.payload.eventId = e ∧
    item.document.payload.attendanceStatus = .waiting

/-- What the sift does to the payload of an item. -/
def siftDocument (e : EventId) (shift : Time) (document : RegistrationDocument) :
    RegistrationDocument :=
  { document with payload :=
      if document.payload.eventId = e ∧ document.payload.attendanceStatus = .waiting then
        Registrations.siftRow shift document.payload
      else document.payload }

theorem key_siftDocument {shift : Time} (document : RegistrationDocument) :
    (siftDocument e shift document).key = document.key := by
  unfold siftDocument RegistrationDocument.key
  dsimp only
  split
  · exact Registrations.key_siftRow shift document.payload
  · rfl

theorem siftRow_ne {shift : Time} (hshift : 0 < shift) (row : Registration) :
    Registrations.siftRow shift row ≠ row := by
  intro hsame
  unfold Registrations.siftRow at hsame
  split at hsame
  · have hqueue : some (queueTime row + shift) = row.answerQueueAt :=
      congrArg Registration.answerQueueAt hsame
    have htime : queueTime row = queueTime row + shift := by
      conv_lhs => rw [queueTime, ← hqueue, Option.getD_some]
    exact absurd htime (Int.lt_add_of_pos_right _ hshift).ne
  · have hcreated : row.createdAt + shift = row.createdAt := congrArg Registration.createdAt hsame
    exact absurd hcreated (Int.lt_add_of_pos_right _ hshift).ne'

/-- Each waiting row of a game may move by the spread of its queue. -/
def SiftFits (tables : RegistrationItems) (e : EventId) : Prop :=
  ∀ row ∈ (RegistrationItems.load tables).rows.waiting e, Registrations.siftedTime row +
    (RegistrationItems.load tables).rows.siftShift e ≤ datetimeMax

/-- A method of a game sees of the tables only its rows. -/
theorem ofEvent_loaded : (loaded (rowsOf tables (.event e))).rows.ofEvent e =
    (RegistrationItems.load tables).rows.ofEvent e := by
  rw [Registrations.ofEvent, Registrations.ofEvent, RegistrationItems.rows_load,
    RegistrationItems.rows_load, rows_original_event, List.filter_map, List.filter_map, List.filter_filter]
  refine congrArg _ (List.filter_congr fun item _ => ?_)
  exact Bool.and_self _

theorem sums_sift {now : Time} {t : Registrations} :
    ((RegistrationCall.siftWaitingToEnd e).sums now t).all (· ≤ datetimeMax) = true ↔
      ((t.waiting e).all fun row =>
        Registrations.siftedTime row + t.siftShift e ≤ datetimeMax) = true := by
  rw [RegistrationCall.sums, List.all_map]
  rfl

theorem siftFits_iff : SiftFits tables e ↔ ((RegistrationCall.siftWaitingToEnd e).sums 0
    (loaded (rowsOf tables (.event e))).rows).all (· ≤ datetimeMax) = true := by
  have hwaiting (t : Registrations) : t.waiting e =
      (t.ofEvent e).filter fun row => row.attendanceStatus = .waiting := by
    rw [Registrations.waiting, Registrations.ofEvent, List.filter_filter]
    exact List.filter_congr fun row _ => by rw [Bool.and_comm, Bool.decide_and]
  have hshift : (loaded (rowsOf tables (.event e))).rows.siftShift e =
      (RegistrationItems.load tables).rows.siftShift e := by
    rw [Registrations.siftShift, Registrations.siftShift, ofEvent_loaded]
  rw [SiftFits, RegistrationCall.sums, List.all_map, List.all_eq_true, hwaiting, hwaiting, ofEvent_loaded,
    hshift]
  simp only [Function.comp_apply, decide_eq_true_eq]

/-- Where the moved places are instants, a waiting row is one action. -/
theorem commits_sifted (hfits : SiftFits tables e) :
    dynamoRegistrations.Commits (RegistrationMethod.of (.siftWaitingToEnd e)) tables ↔
      waitingRows tables e ≤ maxTransactionActions := by
  have hload : dynamoRegistrations.Loads (RegistrationMethod.of (.siftWaitingToEnd e)) tables
      (rowsOf tables (.event e)) := loads_event rfl
  have hrun : ∀ now, run now (loaded (rowsOf tables (.event e))) (.of (.siftWaitingToEnd e)) =
      .ok (.ok (), ⟨(loaded (rowsOf tables (.event e))).rows.sifted e,
        (loaded (rowsOf tables (.event e))).deliveries⟩) := by
    intro now
    have hall := sums_sift.mp (siftFits_iff.mp hfits)
    have hsift : (loaded (rowsOf tables (.event e))).rows.siftWaitingToEnd e =
        (.ok (), (loaded (rowsOf tables (.event e))).rows.sifted e) := if_pos hall
    rw [run, RegistrationCall.performWithin, if_pos (sums_sift.mpr hall), RegistrationCall.perform, hsift]
    rfl
  have hpositive := Registrations.siftShift_pos (loaded (rowsOf tables (.event e))).rows e
  have hafter : ((loaded (rowsOf tables (.event e))).rows.sifted e).rows =
      (rowsOf tables (.event e)).map fun item =>
        (siftDocument e ((loaded (rowsOf tables (.event e))).rows.siftShift e) item.document).payload := by
    rw [Registrations.sifted, Table.rows_mapRows, RegistrationItems.rows_load,
      rows_original_event, List.map_map]
    rfl
  have hdesired : (RegistrationItems.desired ⟨(loaded (rowsOf tables (.event e))).rows.sifted e,
      (loaded (rowsOf tables (.event e))).deliveries⟩).rows =
        (dynamoRegistrations.original (rowsOf tables (.event e))).rows.map fun item =>
          siftDocument e ((loaded (rowsOf tables (.event e))).rows.siftShift e) item.document := by
    rw [RegistrationItems.rows_desired, hafter, List.map_map]
    conv_rhs => rw [rows_original_event]
    refine List.map_congr_left fun item hitem => ?_
    have hstored : item ∈ (dynamoRegistrations.original (rowsOf tables (.event e))).rows := by
      rw [rows_original_event]
      exact hitem
    refine congrArg (RegistrationDocument.mk _) ?_
    exact (congrArg _ (key_siftDocument item.document)).trans
      (RegistrationItems.deliveriesOf_load hstored)
  generalize (loaded (rowsOf tables (.event e))).rows.siftShift e = shift at hpositive hafter hdesired
  refine commits_of_run hload rowsOf_stored hrun ?_ ?_
  · intro row hrow
    rw [hafter] at hrow
    obtain ⟨item, hitem, rfl⟩ := List.mem_map.mp hrow
    exact ⟨item, hitem, (key_siftDocument item.document).symm⟩
  · rw [rewrites, length_delta_map hdesired key_siftDocument, rows_original_event,
      List.countP_filter, waitingRows]
    refine List.countP_congr fun item hitem => ?_
    simp only [Bool.and_eq_true, decide_eq_true_eq]
    constructor
    · rintro ⟨hchanged, hevent⟩
      by_contra hother
      exact hchanged (by simp only [siftDocument, if_neg hother])
    · intro hwaiting
      refine ⟨fun hsame => ?_, hwaiting.1⟩
      have hpayload := congrArg RegistrationDocument.payload hsame
      simp only [siftDocument, if_pos hwaiting] at hpayload
      exact siftRow_ne hpositive _ hpayload

/-- Alone on the tables, the sift of a game returns exactly if its waiting rows are few enough and each
of them may move. -/
theorem commits_siftWaitingToEnd :
    dynamoRegistrations.Commits (RegistrationMethod.of (.siftWaitingToEnd e)) tables ↔
      waitingRows tables e ≤ maxTransactionActions ∧ SiftFits tables e := by
  by_cases hfits : SiftFits tables e
  · rw [and_iff_left hfits]
    exact commits_sifted hfits
  · refine iff_of_false (not_commits_of_raised (loads_event rfl) fun now => ⟨.overflowError, ?_⟩) fun h =>
      hfits h.2
    have hraised : run now (loaded (rowsOf tables (.event e))) (.of (.siftWaitingToEnd e)) =
        .error .overflowError := by
      rw [siftFits_iff] at hfits
      rw [run, RegistrationCall.performWithin]
      exact congrArg _ (if_neg hfits)
    exact worksOut_of_raised hraised

/-! ### The deletions -/

/-- The rows of a game. -/
def gameRows (tables : RegistrationItems) (e : EventId) : Nat :=
  tables.rows.countP fun item => item.document.payload.eventId = e

/-- The rows of a game under some participant keys. -/
def namedRows (tables : RegistrationItems) (e : EventId) (participantKeys : List ParticipantKey) : Nat :=
  tables.rows.countP fun item => item.document.payload.eventId = e ∧
    item.document.payload.participantKey ∈ participantKeys

/-- A method that deletes all that it has loaded. -/
theorem commits_of_deletion {m : RegistrationMethod} {rows : List (Item RegistrationDocument)}
    {answer : m.Ans} {after : Registrations} {size : Nat}
    (hload : dynamoRegistrations.Loads m tables rows) (hrows : ∀ item ∈ rows, item ∈ tables.rows)
    (hrun : ∀ now, m.run now (loaded rows) = .ok (answer, ⟨after, (loaded rows).deliveries⟩))
    (hafter : after.rows = []) (hsize : (dynamoRegistrations.original rows).rows.length = size) :
    dynamoRegistrations.Commits m tables ↔ size ≤ maxTransactionActions := by
  refine commits_of_run hload hrows hrun ?_ ?_
  · intro row hrow
    rw [hafter] at hrow
    exact absurd hrow List.not_mem_nil
  · rw [rewrites, length_delta_empty, hsize]
    rw [RegistrationItems.rows_desired, hafter, List.map_nil]

theorem commits_deleteForEvent :
    dynamoRegistrations.Commits (RegistrationMethod.of (.deleteForEvent e)) tables ↔
      gameRows tables e ≤ maxTransactionActions := by
  have hload : dynamoRegistrations.Loads (RegistrationMethod.of (.deleteForEvent e)) tables
      (rowsOf tables (.event e)) := loads_event rfl
  refine commits_of_deletion hload rowsOf_stored (fun now => rfl) ?_ ?_
  · rw [Registrations.deleteForEvent, Table.rows_filter, RegistrationItems.rows_load,
      rows_original_event, List.filter_eq_nil_iff]
    intro row hrow hother
    obtain ⟨item, hitem, rfl⟩ := List.mem_map.mp hrow
    have hevent : item.document.payload.eventId = e := of_decide_eq_true (List.mem_filter.mp hitem).2
    exact of_decide_eq_true hother hevent
  · rw [rows_original_event, gameRows, List.countP_eq_length_filter]
    rfl

theorem commits_removeMany {participantKeys : List ParticipantKey} :
    dynamoRegistrations.Commits (RegistrationMethod.removeMany e participantKeys) tables ↔
      namedRows tables e participantKeys ≤ maxTransactionActions := by
  have hload : dynamoRegistrations.Loads (RegistrationMethod.removeMany e participantKeys) tables
      (rowsOf tables (.items (participantKeys.map (e, ·)))) := loads_items rfl
  have hnamed : ∀ item, item ∈ rowsOf tables (.items (participantKeys.map (e, ·))) ↔
      item ∈ tables.rows ∧ item.document.payload.eventId = e ∧
        item.document.payload.participantKey ∈ participantKeys := by
    intro item
    rw [rowsOf, List.mem_filterMap]
    constructor
    · rintro ⟨k, hk, hfound⟩
      obtain ⟨participantKey, hmem, rfl⟩ := List.mem_map.mp hk
      have hkey : item.document.payload.key = (e, participantKey) := Store.key_of_find? hfound
      obtain ⟨hevent, hparticipant⟩ := Prod.mk.inj hkey
      exact ⟨Table.mem_of_find? hfound, hevent, hparticipant ▸ hmem⟩
    · rintro ⟨hstored, rfl, hmem⟩
      exact ⟨_, List.mem_map_of_mem hmem, Table.find?_key hstored⟩
  refine commits_of_deletion hload rowsOf_stored (fun now => rfl) ?_ ?_
  · rw [Registrations.removeMany, Table.rows_filter, RegistrationItems.rows_load,
      List.filter_eq_nil_iff]
    intro row hrow hother
    obtain ⟨item, hitem, rfl⟩ := List.mem_map.mp hrow
    have hloaded := ((mem_original rowsOf_stored).mp hitem).1
    exact of_decide_eq_true hother ((hnamed item).mp hloaded).2
  · rw [namedRows, List.countP_eq_length_filter]
    refine List.Perm.length_eq ((List.perm_ext_iff_of_nodup (Table.rows_nodup _)
      (tables.rows_nodup.filter _)).mpr fun item => ?_)
    rw [mem_original rowsOf_stored, hnamed, List.mem_filter, decide_eq_true_eq]
    simp only [and_true]

/-! ### A new row -/

theorem stored_of_loaded {row : Registration}
    (hrow : row ∈ (loaded (rowsOf tables (.event e))).rows.rows) :
    ∃ item ∈ tables.rows, item.document.payload = row := by
  rw [RegistrationItems.rows_load] at hrow
  obtain ⟨item, hitem, rfl⟩ := List.mem_map.mp hrow
  exact ⟨item, rowsOf_stored item ((mem_original rowsOf_stored).mp hitem).1, rfl⟩

/-- All places of the stored rows are at most `high`. -/
def PlacesTo (high : Time) (tables : RegistrationItems) : Prop :=
  ∀ item ∈ tables.rows, queueTime item.document.payload ≤ high

/-- The place behind places up to `high`. -/
theorem enlistTime_le {high now : Time} (hplaces : PlacesTo high tables)
    (hnow : now ≤ high + microsecond) :
    ((loaded (rowsOf tables (.event e))).rows.latest e fun _ => true).all (· ≤ high) = true ∧
      (loaded (rowsOf tables (.event e))).rows.enlistTime now e ≤ high + microsecond := by
  rw [Registrations.enlistTime]
  cases hlatest : (loaded (rowsOf tables (.event e))).rows.latest e fun _ => true with
  | none => exact ⟨rfl, hnow⟩
  | some latest =>
    obtain ⟨row, hrow, rfl⟩ := List.mem_map.mp (List.max?_eq_some_iff.mp hlatest).1
    obtain ⟨item, hstored, rfl⟩ := stored_of_loaded
      (List.mem_of_mem_filter (List.mem_of_mem_filter hrow))
    have hle := hplaces item hstored
    exact ⟨decide_eq_true hle, max_le hnow (Int.add_le_add_right hle _)⟩

theorem queueTime_newRow (a : Registrations.EnlistArguments) (now queueAt : Time) :
    queueTime (a.newRow e now queueAt) = queueAt := by
  unfold queueTime Registrations.EnlistArguments.newRow
  cases a.answerId <;> rfl

theorem find?_loaded_of_new {k : RegistrationKey} (hnew : tables.find? k = none) :
    (loaded (rowsOf tables (.event e))).rows.find? k = none := by
  rw [Option.eq_none_iff_forall_ne_some]
  intro row hrow
  obtain ⟨item, hstored, rfl⟩ := stored_of_loaded (Table.mem_of_find? hrow)
  have hkey : item.document.payload.key = k := Table.key_of_find? hrow
  have hfound : tables.find? item.document.payload.key = some item := Table.find?_key hstored
  rw [hkey, hnew] at hfound
  cases hfound

theorem find?_original_of_new {k : RegistrationKey} (hnew : tables.find? k = none) :
    (dynamoRegistrations.original (rowsOf tables (.event e))).find? k = none := by
  rw [Option.eq_none_iff_forall_ne_some]
  intro item hitem
  have hstored := rowsOf_stored item ((mem_original rowsOf_stored).mp (Table.mem_of_find? hitem)).1
  have hkey : item.document.key = k := Store.key_of_find? hitem
  have hfound : tables.find? item.document.key = some item := Table.find?_key hstored
  rw [hkey, hnew] at hfound
  cases hfound

/-- An enlistment under a new key stores a new row at the next place. -/
theorem run_enlist {a : Registrations.EnlistArguments} {high now : Time}
    (hnew : tables.find? (e, a.participantKey) = none) (hplaces : PlacesTo high tables)
    (hroom : high + microsecond ≤ datetimeMax) (hnow : now ≤ high + microsecond) :
    run now (loaded (rowsOf tables (.event e))) (.of (.enlist e a)) =
      .ok (true, ⟨(loaded (rowsOf tables (.event e))).rows.insertNew
        (a.newRow e now ((loaded (rowsOf tables (.event e))).rows.enlistTime now e)),
        (loaded (rowsOf tables (.event e))).deliveries⟩) := by
  have hunread : (loaded (rowsOf tables (.event e))).rows.get e a.participantKey = none :=
    find?_loaded_of_new hnew
  have hsums : ((RegistrationCall.enlist e a).sums now
      (loaded (rowsOf tables (.event e))).rows).all (· ≤ datetimeMax) = true := by
    rw [RegistrationCall.sums, hunread]
    have hle := (enlistTime_le (e := e) hplaces hnow).1
    cases hlatest : (loaded (rowsOf tables (.event e))).rows.latest e fun _ => true with
    | none => rfl
    | some latest =>
      rw [hlatest] at hle
      have hsum := Int.add_le_add_right (of_decide_eq_true hle) microsecond
      simpa using hsum.trans hroom
  rw [run, RegistrationCall.performWithin, if_pos hsums, RegistrationCall.perform,
    Registrations.enlist, hunread]
  rfl

/-- A new row without deliveries is one document more. -/
theorem rows_desired_insertNew {row : Registration} (hnew : tables.find? row.key = none) :
    (RegistrationItems.desired ⟨(loaded (rowsOf tables (.event e))).rows.insertNew row,
      (loaded (rowsOf tables (.event e))).deliveries⟩).rows =
        (dynamoRegistrations.original (rowsOf tables (.event e))).rows.map Item.document ++
          [⟨row, ∅⟩] := by
  have hdeliveries : RegistrationItems.deliveriesOf (loaded (rowsOf tables (.event e))).deliveries
      row.key = ∅ := by
    rw [Finset.eq_empty_iff_forall_notMem]
    intro request hrequest
    obtain ⟨item, hitem, hkey, -⟩ := RegistrationItems.mem_load_deliveries.mp
      (RegistrationItems.mem_deliveriesOf.mp hrequest)
    have hmissed := find?_original_of_new (e := e) hnew
    rw [← hkey] at hmissed
    exact absurd ((Table.find?_key hitem).symm.trans hmissed) (by simp)
  have hrows : ((loaded (rowsOf tables (.event e))).rows.insertNew row).rows =
      (loaded (rowsOf tables (.event e))).rows.rows ++ [row] :=
    Table.rows_insertNew_of_none (find?_loaded_of_new hnew)
  rw [RegistrationItems.rows_desired, hrows, RegistrationItems.rows_load, List.map_append,
    List.map_map, List.map_singleton, hdeliveries]
  refine congrArg (· ++ _) (List.map_congr_left fun item hitem => ?_)
  exact congrArg (RegistrationDocument.mk _) (RegistrationItems.deliveriesOf_load hitem)

/-- An enlistment under a new key works out one item, with a waiting row at the next place. -/
theorem worksOut_enlist {a : Registrations.EnlistArguments} {high now : Time}
    (hnew : tables.find? (e, a.participantKey) = none) (hplaces : PlacesTo high tables)
    (hroom : high + microsecond ≤ datetimeMax) (hnow : now ≤ high + microsecond) :
    ∃ row : Registration, (row.key = (e, a.participantKey) ∧ row.attendanceStatus = .waiting ∧
        queueTime row ≤ high + microsecond) ∧
      dynamoRegistrations.worksOut (RegistrationMethod.of (.enlist e a)) now
        (rowsOf tables (.event e)) = .ok (true, [.put ⟨1, row, ∅⟩ .absent]) ∧
      Committed [.put ⟨1, row, ∅⟩ .absent] tables (tables.insert ⟨1, row, ∅⟩) := by
  let row := a.newRow e now ((loaded (rowsOf tables (.event e))).rows.enlistTime now e)
  have hrow : tables.find? row.key = none := hnew
  have hrun := run_enlist hnew hplaces hroom hnow
  have hdesired := rows_desired_insertNew (e := e) hrow
  have hupToDate : UpToDate (dynamoRegistrations.original (rowsOf tables (.event e)))
      (RegistrationItems.desired ⟨(loaded (rowsOf tables (.event e))).rows.insertNew row,
        (loaded (rowsOf tables (.event e))).deliveries⟩) tables := by
    refine upToDate_original rowsOf_stored fun document hdocument hnone => ?_
    rw [hdesired] at hdocument
    rcases List.mem_append.mp hdocument with hold | hlast
    · obtain ⟨item, hitem, rfl⟩ := List.mem_map.mp hold
      exact absurd ((Table.find?_key hitem).symm.trans hnone) (by simp)
    · rw [List.mem_singleton.mp hlast]
      exact hnew
  have hdelta := delta_new hdesired (find?_original_of_new hrow)
  have hcommitted := hupToDate.committed
  rw [hdelta] at hcommitted
  have hplace : queueTime row ≤ high + microsecond := by
    rw [queueTime_newRow]
    exact (enlistTime_le hplaces hnow).2
  refine ⟨row, ⟨rfl, rfl, hplace⟩, ?_, hcommitted⟩
  rw [worksOut_eq_ok]
  exact ⟨_, hrun, hdelta.symm.trans (List.append_nil _).symm⟩

theorem enlisted_new {a : Registrations.EnlistArguments} {occasions : Nat → Occasion _ String}
    {high : Time} (hserves : Serves occasions) (hnew : tables.find? (e, a.participantKey) = none)
    (hplaces : PlacesTo high tables) (hroom : high + microsecond ≤ datetimeMax)
    (hnow : ∀ n, (occasions n).now ≤ high + microsecond) :
    ∃ (row : Registration) (rest : Nat → Occasion _ String),
      (dynamoRegistrations.execute (RegistrationMethod.of (.enlist e a)) 4).run
        dynamoRegistrations.service occasions tables =
          (.ok true, rest, tables.insert ⟨1, row, ∅⟩) ∧
      row.key = (e, a.participantKey) ∧ row.attendanceStatus = .waiting ∧
      queueTime row ≤ high + microsecond := by
  have hload : dynamoRegistrations.Loads (RegistrationMethod.of (.enlist e a)) tables
      (rowsOf tables (.event e)) := loads_event rfl
  have hone : 1 ≤ maxTransactionActions := by decide
  obtain ⟨n, answer, actions, rest, hactions, hrun⟩ := run_execute_committed hload hserves
    (fun n => by
      obtain ⟨row, -, hworked, hcommitted⟩ := worksOut_enlist hnew hplaces hroom (hnow n)
      exact ⟨true, _, hworked, hone, hcommitted⟩) 3
  obtain ⟨row, hrow, hworked, -⟩ := worksOut_enlist hnew hplaces hroom (hnow n)
  rw [hworked] at hactions
  obtain ⟨rfl, rfl⟩ := Prod.mk.inj (Except.ok.inj hactions)
  exact ⟨row, rest, hrun, hrow⟩

/-- The tables after some players have signed up for a game, one after another. -/
def enlistAll (e : EventId) :
    List Registrations.EnlistArguments → RegistrationItems → RegistrationItems
  | [], tables => tables
  | a :: rest, tables =>
    enlistAll e rest ((dynamoRegistrations.execute (RegistrationMethod.of (.enlist e a)) 4).run
      dynamoRegistrations.service (fun _ => { found := fun _ => [] }) tables).2.2

/-- Nothing bounds the players that wait, as long as the clock of the places has room for them. -/
theorem waitingRows_enlistAll {players : List Registrations.EnlistArguments} {high : Int}
    (hnodup : (players.map (·.participantKey)).Nodup)
    (hnew : ∀ a ∈ players, tables.find? (e, a.participantKey) = none)
    (hplaces : PlacesTo high tables) (hstart : 0 ≤ high) (hroom : high + players.length ≤ datetimeMax) :
    waitingRows (enlistAll e players tables) e = waitingRows tables e + players.length := by
  induction players generalizing tables high with
  | nil => rfl
  | cons a players ih =>
    rw [List.map_cons, List.nodup_cons] at hnodup
    let occasions : Nat → Occasion RegistrationDocument String := fun _ => { found := fun _ => [] }
    have hserves : Serves occasions := fun _ => rfl
    rw [List.length_cons, Nat.cast_add, Nat.cast_one, ← add_assoc, add_right_comm] at hroom
    have hfirst : high + microsecond ≤ datetimeMax := (Int.le_add_of_nonneg_right (Int.natCast_nonneg _)).trans hroom
    have hclock : ∀ n, (occasions n).now ≤ high + microsecond := fun _ => Int.add_nonneg hstart (by decide)
    obtain ⟨row, rest, hrun, hkey, hwaiting, hplace⟩ :=
      enlisted_new hserves (hnew a List.mem_cons_self) hplaces hfirst hclock
    have hrows : (tables.insert ⟨1, row, ∅⟩).rows = tables.rows ++ [⟨1, row, ∅⟩] := by
      refine Table.rows_insert_of_none ?_
      show tables.find? row.key = none
      rw [hkey]
      exact hnew a List.mem_cons_self
    have hone : waitingRows (tables.insert ⟨1, row, ∅⟩) e = waitingRows tables e + 1 := by
      have hevent : row.eventId = e := (Prod.mk.inj hkey).1
      rw [waitingRows, hrows, List.countP_append, waitingRows]
      simp [hevent, hwaiting]
    have hothers : ∀ b ∈ players, (tables.insert ⟨1, row, ∅⟩).find? (e, b.participantKey) = none := by
      intro b hb
      rw [Table.find?_insert, if_neg]
      · exact hnew b (List.mem_cons_of_mem a hb)
      · intro hsame
        have hkeys : (e, b.participantKey) = (e, a.participantKey) := hsame.trans hkey
        exact hnodup.1 (List.mem_map.mpr ⟨b, hb, (Prod.mk.inj hkeys).2⟩)
    have hafter : PlacesTo (high + microsecond) (tables.insert ⟨1, row, ∅⟩) := by
      intro item hitem
      rw [hrows] at hitem
      rcases List.mem_append.mp hitem with hold | hlast
      · exact (hplaces item hold).trans (Int.le_add_of_nonneg_right (by decide))
      · rw [List.mem_singleton.mp hlast]
        exact hplace
    rw [enlistAll, hrun, ih hnodup.2 hothers hafter (Int.add_nonneg hstart (by decide)) hroom, hone,
      List.length_cons, Nat.add_assoc, Nat.add_comm 1]

end RegistrationMethod

/-! ## Events -/

namespace EventMethod

variable {tables : EventItems} {e : EventId}

/-- The rows of an event and of its leaders. -/
def rowsOf (tables : EventItems) (e : EventId) : List (Item EventDocument) :=
  (tables.find? (.event e)).toList ++
    tables.rows.filter fun item => item.document.key.partition = some e

theorem loads_delete : dynamoEvents.Loads (EventMethod.of (.delete e)) tables (rowsOf tables e) := by
  show dynamoEvents.Reads ((Prog.ofCall (S := EventRequests) (.getItem (.event e))).bind fun event =>
    (Prog.ofCall (S := EventRequests) (.query e)).bind fun leaders =>
      .done (event.toList ++ leaders)) tables _
  exact (reads_call fun i => rfl).bind ((reads_call fun i => rfl).bind reads_done)

theorem mem_rowsOf {item : Item EventDocument} : item ∈ rowsOf tables e ↔ item ∈ tables.rows ∧
    (item.document.key = .event e ∨ item.document.key.partition = some e) := by
  rw [rowsOf, List.mem_append, Option.mem_toList, Table.find?_eq_some_iff,
    List.mem_filter, decide_eq_true_eq, ← and_or_left]

/-- The items that are loaded are those rows. -/
theorem rows_original_delete : (dynamoEvents.original (rowsOf tables e)).rows = rowsOf tables e := by
  have hall : (rowsOf tables e).filter (fun item => dynamoEvents.records item.document) =
      rowsOf tables e := by
    refine List.filter_eq_self.mpr fun item hitem => ?_
    rcases (mem_rowsOf.mp hitem).2 with hkey | hkey
    all_goals
      cases hdocument : item.document with
      | lock => rw [hdocument] at hkey; exact nomatch hkey
      | _ => rfl
  rw [original, hall]
  refine Table.rows_ofList ?_
  rw [rowsOf, List.map_append, List.nodup_append]
  refine ⟨?_, tables.nodup.sublist (List.filter_sublist.map _), ?_⟩
  · cases tables.find? (.event e) <;> simp
  · rintro k hk k' hk' rfl
    obtain ⟨event, hevent, rfl⟩ := List.mem_map.mp hk
    obtain ⟨leader, hleader, hsame⟩ := List.mem_map.mp hk'
    have hkey : event.document.key = .event e := Store.key_of_find? (Option.mem_toList.mp hevent)
    have hpartition : leader.document.key.partition = some e :=
      of_decide_eq_true (List.mem_filter.mp hleader).2
    have hboth : leader.document.key = .event e := hsame.trans hkey
    rw [hboth] at hpartition
    exact nomatch hpartition

theorem find?_original_delete :
    (dynamoEvents.original (rowsOf tables e)).find? (.event e) = tables.find? (.event e) := by
  rw [Table.find?, rows_original_delete, rowsOf, List.find?_append]
  cases hfound : tables.find? (.event e) with
  | some item =>
    have hkey : item.document.key = .event e := Store.key_of_find? hfound
    simp [hkey]
  | none =>
    simp only [Option.toList_none, List.find?_nil, Option.none_or, List.find?_eq_none,
      decide_eq_true_eq]
    intro item hitem hkey
    have hpartition : item.document.key.partition = some e :=
      of_decide_eq_true (List.mem_filter.mp hitem).2
    rw [show item.document.key = .event e from hkey] at hpartition
    cases hpartition

/-- The memory repository after the deletion. -/
def afterDelete (tables : EventItems) (e : EventId) : EventMemory :=
  ⟨(EventItems.load (dynamoEvents.original (rowsOf tables e))).rows.erase e,
    (EventItems.load (dynamoEvents.original (rowsOf tables e))).leaders.ofEventRemoved e⟩

theorem desired_delete (now : Time) : (EventItems.desired now
    (dynamoEvents.original (rowsOf tables e)) (afterDelete tables e)).rows = [] := by
  rw [List.eq_nil_iff_forall_not_mem]
  intro document hdocument
  rcases EventItems.mem_desired.mp hdocument with ⟨event, hevent, -⟩ | ⟨entry, hentry, -, -⟩
  · obtain ⟨hloaded, hother⟩ := List.mem_filter.mp hevent
    obtain ⟨item, hitem, hpayload⟩ := EventItems.mem_load_rows.mp hloaded
    rcases (mem_rowsOf.mp (rows_original_delete ▸ hitem)).2 with hkey | hkey
    · rw [hpayload] at hkey
      exact of_decide_eq_true hother (EventKey.event.inj hkey)
    · rw [hpayload] at hkey
      exact nomatch hkey
  · obtain ⟨hloaded, hother⟩ := List.mem_filter.mp hentry
    obtain ⟨item, hitem, createdAt, hleader⟩ := EventItems.mem_load_leaders.mp hloaded
    rcases (mem_rowsOf.mp (rows_original_delete ▸ hitem)).2 with hkey | hkey
    · rw [hleader] at hkey
      exact nomatch hkey
    · rw [hleader] at hkey
      exact of_decide_eq_true hother (Option.some.inj hkey)

/-- The unique values of the stored event. -/
def uniqueValuesOf (tables : EventItems) (e : EventId) : List (LockKind × String) :=
  EventItems.uniqueValues ((tables.find? (.event e)).map Item.document)

theorem nodup_uniqueValuesOf : (uniqueValuesOf tables e).Nodup := by
  unfold uniqueValuesOf EventItems.uniqueValues
  cases (tables.find? (.event e)).map Item.document with
  | none => exact List.nodup_nil
  | some document =>
    cases document with
    | event payload =>
      cases htoken : payload.signupToken <;> cases hchat : payload.telegramChatId <;>
        simp [EventDocument.uniqueValues, htoken, hchat]
    | _ => exact List.nodup_nil

/-- The deletion gives up every unique value of the event. -/
theorem extraActions_delete {desired : Table EventDocument.key} (hdesired : desired.rows = []) :
    EventItems.extraActions (dynamoEvents.original (rowsOf tables e)) desired =
      (uniqueValuesOf tables e).map (EventItems.unlockAction e) := by
  have hnone : desired.find? (.event e) = none := by rw [Table.find?, hdesired, List.find?_nil]
  have hlocks : EventItems.lockActions (dynamoEvents.original (rowsOf tables e)) desired e =
      (uniqueValuesOf tables e).map (EventItems.unlockAction e) := by
    simp [EventItems.lockActions, hnone, find?_original_delete, uniqueValuesOf,
      EventItems.uniqueValues]
  have hleaders : EventItems.eventIds ((tables.rows.filter fun item =>
      item.document.key.partition = some e).map Item.document) = [] := by
    rw [EventItems.eventIds, List.filterMap_map, List.filterMap_eq_nil_iff]
    intro item hitem
    have hpartition : item.document.key.partition = some e :=
      of_decide_eq_true (List.mem_filter.mp hitem).2
    cases hdocument : item.document with
    | event => rw [hdocument] at hpartition; cases hpartition
    | lock | leader => simp only [Function.comp, hdocument]
  have hids : EventItems.eventIds ((dynamoEvents.original (rowsOf tables e)).rows.map Item.document ++
      desired.rows) = EventItems.eventIds ((tables.find? (.event e)).toList.map Item.document) := by
    rw [hdesired, List.append_nil, rows_original_delete, rowsOf, List.map_append]
    conv_rhs => rw [← List.append_nil (EventItems.eventIds _), ← hleaders]
    exact List.filterMap_append
  rw [EventItems.extraActions, hids]
  cases hfound : tables.find? (.event e) with
  | none => simp [uniqueValuesOf, hfound, EventItems.uniqueValues, EventItems.eventIds]
  | some item =>
    obtain ⟨payload, hpayload, hid⟩ := EventItems.document_of_event hfound
    have hone : EventItems.eventIds (Option.toList (some item) |>.map Item.document) = [e] := by
      simp [EventItems.eventIds, hpayload, hid]
    rw [hone, show [e].eraseDups = [e] from rfl, List.flatMap_singleton, hlocks]

/-- The actions of the deletion. -/
abbrev deletions (tables : EventItems) (e : EventId) (now : Time) :
    List (Action EventDocument EventKey) :=
  delta (dynamoEvents.original (rowsOf tables e)) (EventItems.desired now
    (dynamoEvents.original (rowsOf tables e)) (afterDelete tables e)) ++
      (uniqueValuesOf tables e).map (EventItems.unlockAction e)

theorem worksOut_delete (now : Time) :
    ∃ answer, dynamoEvents.worksOut (EventMethod.of (.delete e)) now (rowsOf tables e) =
      .ok (answer, deletions tables e now) := by
  refine ⟨_, worksOut_eq_ok.mpr ⟨afterDelete tables e, rfl, ?_⟩⟩
  show deletions tables e now = delta _ _ ++ EventItems.extraActions _ _
  rw [extraActions_delete (desired_delete now)]

/-- The items that the deletion of an event deletes. -/
def deletedBy (tables : EventItems) (e : EventId) : Nat :=
  (tables.rows.countP fun item => item.document.key = .event e ∨
    item.document.key.partition = some e) + (uniqueValuesOf tables e).length

theorem length_deletions (now : Time) : (deletions tables e now).length = deletedBy tables e := by
  rw [deletions, List.length_append, length_delta_empty (desired_delete now), List.length_map,
    rows_original_delete, deletedBy, List.countP_eq_length_filter]
  refine congrArg (· + _) (List.Perm.length_eq ((List.perm_ext_iff_of_nodup ?_
    (tables.rows_nodup.filter _)).mpr fun item => ?_))
  · rw [← rows_original_delete]
    exact Table.rows_nodup _
  · rw [mem_rowsOf, List.mem_filter, decide_eq_true_eq]

/-- The event holds the locks of its unique values. -/
def LocksHeld (tables : EventItems) (e : EventId) : Prop :=
  ∀ unique ∈ uniqueValuesOf tables e, ∃ item, tables.find? (.lock unique.1 unique.2) = some item ∧
    item.document = .lock unique.1 unique.2 e

theorem committed_deletions (now : Time) (hlocks : LocksHeld tables e) :
    Committed (deletions tables e now) tables (applyAll (deletions tables e now) tables) := by
  have hupToDate : UpToDate (dynamoEvents.original (rowsOf tables e)) (EventItems.desired now
      (dynamoEvents.original (rowsOf tables e)) (afterDelete tables e)) tables := by
    refine upToDate_original (fun item hitem => (mem_rowsOf.mp hitem).1) fun document hdocument => ?_
    rw [desired_delete] at hdocument
    exact absurd hdocument List.not_mem_nil
  refine ⟨?_, ?_, rfl⟩
  · rw [deletions, List.map_append, List.nodup_append]
    refine ⟨nodup_delta, ?_, ?_⟩
    · rw [List.map_map]
      refine nodup_uniqueValuesOf.map fun unique unique' hsame => ?_
      obtain ⟨hkind, hvalue⟩ := EventKey.lock.inj hsame
      exact Prod.ext hkind hvalue
    · rintro k hk k' hk' rfl
      obtain ⟨a, ha, rfl⟩ := List.mem_map.mp hk
      obtain ⟨b, hb, hsame⟩ := List.mem_map.mp hk'
      obtain ⟨unique, -, rfl⟩ := List.mem_map.mp hb
      rcases mem_delta.mp ha with ⟨document, hdocument, -, -⟩ | ⟨item, hitem, -, rfl⟩
      · rw [desired_delete] at hdocument
        exact absurd hdocument List.not_mem_nil
      · rw [target_deleteAction] at hsame
        rcases (mem_rowsOf.mp (rows_original_delete ▸ hitem)).2 with hkey | hkey
        · exact absurd (hsame.trans hkey) nofun
        · rw [← show _ = item.document.key from hsame] at hkey
          exact nomatch hkey
  · intro a ha
    rcases List.mem_append.mp ha with hdelta | hlock
    · exact hupToDate.allowed hdelta
    · obtain ⟨unique, hunique, rfl⟩ := List.mem_map.mp hlock
      obtain ⟨item, hfound, hdocument⟩ := hlocks unique hunique
      show Option.any _ (tables.find? (.lock unique.1 unique.2)) = true
      rw [hfound, Option.any_some, hdocument]
      exact decide_eq_true rfl

/-- A lock that is not held refuses the deletion. -/
theorem transact_deletions_refused (now : Time) (hlocks : ¬ LocksHeld tables e) :
    deletions tables e now ≠ [] ∧ (transact (deletions tables e now) tables).1 ≠ .committed := by
  unfold LocksHeld at hlocks
  push Not at hlocks
  obtain ⟨unique, hunique, hmissing⟩ := hlocks
  have hmem : EventItems.unlockAction e unique ∈ deletions tables e now :=
    List.mem_append_right _ (List.mem_map_of_mem hunique)
  refine ⟨List.ne_nil_of_mem hmem, fun houtcome => ?_⟩
  have hallowed := (committed_of_transact houtcome).allowed _ hmem
  obtain ⟨item, hfound, hdocument⟩ := (Option.any_eq_true _ _).mp hallowed
  exact hmissing item hfound (of_decide_eq_true hdocument)

theorem commits_delete : dynamoEvents.Commits (EventMethod.of (.delete e)) tables ↔
    deletedBy tables e ≤ maxTransactionActions ∧ LocksHeld tables e := by
  by_cases hlocks : LocksHeld tables e
  · rw [and_iff_left hlocks]
    refine commits_iff loads_delete fun now => ?_
    obtain ⟨answer, hworked⟩ := worksOut_delete now
    exact ⟨answer, _, hworked, length_deletions now, committed_deletions now hlocks⟩
  · refine iff_of_false (fun hcommits => ?_) fun h => hlocks h.2
    let occasions : Nat → Occasion EventDocument EventSearch := fun _ => { found := fun _ => [] }
    have hserves : Serves occasions := fun _ => rfl
    obtain ⟨answer, hanswer⟩ := hcommits occasions hserves
    obtain ⟨fault, hraised⟩ := run_execute_refused loads_delete hserves (fun now => by
      obtain ⟨answer, hworked⟩ := worksOut_delete now
      exact ⟨answer, _, hworked, transact_deletions_refused now hlocks⟩) 4
    rw [hraised] at hanswer
    exact nomatch hanswer

end EventMethod

/-! ## The limit -/

/-- Alone on the tables, the sift of a game returns exactly if at most a hundred of its rows wait and
each of them may move by the spread of the queue, the deletions of its rows exactly if at most a hundred
are deleted, and the deletion of an event that holds its locks exactly if these, the event and its
leaders are at most a hundred items. -/
theorem mutations_commit_iff (registrations : RegistrationItems) (events : EventItems) (e : EventId)
    (participantKeys : List ParticipantKey) :
    (dynamoRegistrations.Commits (RegistrationMethod.of (.siftWaitingToEnd e)) registrations ↔
      RegistrationMethod.waitingRows registrations e ≤ maxTransactionActions ∧
        RegistrationMethod.SiftFits registrations e) ∧
    (dynamoRegistrations.Commits (RegistrationMethod.of (.deleteForEvent e)) registrations ↔
      RegistrationMethod.gameRows registrations e ≤ maxTransactionActions) ∧
    (dynamoRegistrations.Commits (RegistrationMethod.removeMany e participantKeys) registrations ↔
      RegistrationMethod.namedRows registrations e participantKeys ≤ maxTransactionActions) ∧
    (dynamoEvents.Commits (EventMethod.of (.delete e)) events ↔
      EventMethod.deletedBy events e ≤ maxTransactionActions ∧ EventMethod.LocksHeld events e) :=
  ⟨RegistrationMethod.commits_siftWaitingToEnd, RegistrationMethod.commits_deleteForEvent,
    RegistrationMethod.commits_removeMany, EventMethod.commits_delete⟩

/-! ### A crowd -/

section Samples

/-- The key of the Telegram user `1000 + n`. -/
def crowdKey (n : Nat) : ParticipantKey :=
  String.ofList ("telegram:1".toList ++
    [Nat.digitChar (n / 100 % 10), Nat.digitChar (n / 10 % 10), Nat.digitChar (n % 10)])

def crowd : List Registrations.EnlistArguments :=
  (List.range 101).map fun n =>
    { operationId := "enlist", participantKey := crowdKey n, displayName := "Игрок", wishPlay := "нет" }

theorem digitChar_inj : ∀ d < 10, ∀ d' < 10, Nat.digitChar d = Nat.digitChar d' → d = d' := by
  decide

theorem nodup_crowd : (crowd.map (·.participantKey)).Nodup := by
  rw [crowd, List.map_map]
  refine List.Nodup.map_on (fun n hn n' hn' hsame => ?_) List.nodup_range
  have hdigits := List.append_cancel_left (String.ofList_injective hsame)
  simp only [List.cons.injEq] at hdigits
  obtain ⟨hhundreds, htens, hones, -⟩ := hdigits
  have hn := List.mem_range.mp hn
  have hn' := List.mem_range.mp hn'
  have h₁ := digitChar_inj _ (Nat.mod_lt _ (by decide)) _ (Nat.mod_lt _ (by decide)) hhundreds
  have h₂ := digitChar_inj _ (Nat.mod_lt _ (by decide)) _ (Nat.mod_lt _ (by decide)) htens
  have h₃ := digitChar_inj _ (Nat.mod_lt _ (by decide)) _ (Nat.mod_lt _ (by decide)) hones
  omega

/-- A game with a hundred masters. -/
def manyMasters : EventItems where
  rows := ⟨1, .event { eventId := "game", name := "Игра" }⟩ ::
    (List.range 100).map fun n => ⟨1, .leader "game" ⟨.telegram, n⟩ 0⟩
  nodup := by
    rw [List.map_cons, List.nodup_cons, List.map_map]
    refine ⟨?_, List.nodup_range.map fun n n' hsame => ?_⟩
    · simp [EventDocument.key]
    · exact (BotIdentity.mk.inj (EventKey.leader.inj hsame).2).2

/-- A hundred and one players have signed up, so the game can neither be sifted nor deleted; nor can a
game with a hundred masters. -/
theorem crowd_blocks :
    ¬ dynamoRegistrations.Commits (RegistrationMethod.of (.siftWaitingToEnd "game"))
      (RegistrationMethod.enlistAll "game" crowd Table.empty) ∧
    ¬ dynamoRegistrations.Commits (RegistrationMethod.of (.deleteForEvent "game"))
      (RegistrationMethod.enlistAll "game" crowd Table.empty) ∧
    ¬ dynamoEvents.Commits (EventMethod.of (.delete "game")) manyMasters := by
  have hwaiting : RegistrationMethod.waitingRows
      (RegistrationMethod.enlistAll "game" crowd Table.empty) "game" = 101 := by
    rw [RegistrationMethod.waitingRows_enlistAll nodup_crowd (fun _ _ => rfl)
      (fun _ h => absurd h List.not_mem_nil) (le_refl (0 : Int)) (by decide)]
    simp [crowd, RegistrationMethod.waitingRows, Table.empty]
  have hrows : 101 ≤ RegistrationMethod.gameRows
      (RegistrationMethod.enlistAll "game" crowd Table.empty) "game" := by
    rw [← hwaiting]
    refine List.countP_mono_left fun item _ hboth => ?_
    exact decide_eq_true (of_decide_eq_true hboth).1
  have hdeleted : 101 ≤ EventMethod.deletedBy manyMasters "game" := by
    have hall : (manyMasters.rows.countP fun item => item.document.key = .event "game" ∨
        item.document.key.partition = some "game") = manyMasters.rows.length := by
      refine List.countP_eq_length.mpr fun item hitem => decide_eq_true ?_
      rcases List.mem_cons.mp hitem with rfl | hleader
      · exact .inl rfl
      · obtain ⟨n, -, rfl⟩ := List.mem_map.mp hleader
        exact .inr rfl
    have hlength : manyMasters.rows.length = 101 := by simp [manyMasters]
    rw [EventMethod.deletedBy, hall, hlength]
    exact Nat.le_add_right _ _
  refine ⟨fun h => ?_, fun h => ?_, fun h => ?_⟩
  · have hfew := (RegistrationMethod.commits_siftWaitingToEnd.mp h).1
    rw [hwaiting] at hfew
    exact absurd hfew (by decide)
  · have hfew := RegistrationMethod.commits_deleteForEvent.mp h
    exact absurd (hrows.trans hfew) (by decide)
  · have hfew := (EventMethod.commits_delete.mp h).1
    exact absurd (hdeleted.trans hfew) (by decide)

end Samples

end LarpBot
