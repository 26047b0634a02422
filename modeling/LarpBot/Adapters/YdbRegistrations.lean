import LarpBot.Adapters.DynamoRegistrations
import LarpBot.Foundation.Queries

/-!
# The registration repository on YDB

`YdbRegistrationRepository`: a method that writes is one query, but for `enlist` and the sift, which
read before they write. The queries that change rows do not ask what they have touched, so these
methods answer `True` in any case. The table has no columns for an answer.
-/

namespace LarpBot

open Atomic

/-- The instants of a column of type `Timestamp`: from 1970 until 2106. -/
def isTimestamp (time : Time) : Bool :=
  0 ≤ time && time < 4291747200000000

/-- The last instant of such a column. -/
def timestampMax : Time := 4291747199999999

theorem isTimestamp_iff {time : Time} : isTimestamp time ↔ 0 ≤ time ∧ time ≤ timestampMax := by
  unfold isTimestamp
  rw [Bool.and_eq_true, decide_eq_true_eq, decide_eq_true_eq]
  exact and_congr_right fun _ => (Int.lt_add_one_iff : time < timestampMax + 1 ↔ time ≤ timestampMax)

/-- The failure of a query with an instant that is no `Timestamp`. -/
def Fault.timestamp : Fault :=
  .integration "Timestamp"

/-- A query with some instants among its parameters: what it answers and what it writes. -/
def ydbQuery {α W : Type} (times : List Time) (store : W) (answer : α) (written : W) :
    Except Fault α × W :=
  if times.all isTimestamp then (.ok answer, written) else (.error .timestamp, store)

theorem ydbQuery_of {α W : Type} {times : List Time} (h : times.all isTimestamp) (store : W)
    (answer : α) (written : W) : ydbQuery times store answer written = (.ok answer, written) :=
  if_pos h

namespace YdbRegistrations

open Registrations

variable (rows : Registrations) (now : Time)

/-- `event_id = $event_id AND participant_key = $participant_key` -/
def isRow (eventId : EventId) (participantKey : ParticipantKey) (row : Registration) : Truth :=
  (Truth.is (row.eventId = eventId)).and (.is (row.participantKey = participantKey))

/-- `event_id = $event_id AND participant_key IN $participant_keys` -/
def isNamed (eventId : EventId) (participantKeys : List ParticipantKey) (row : Registration) : Truth :=
  (Truth.is (row.eventId = eventId)).and (.is (row.participantKey ∈ participantKeys))

/-- `last_operation_id != $operation_id` -/
def isUnstamped (operationId : OperationId) (row : Registration) : Truth :=
  .is (row.lastOperationId ≠ operationId)

/-- What a row becomes, with the stamp of the operation. -/
def stamp (operationId : OperationId) (f : Registration → Registration) (row : Registration) :
    Registration :=
  { f row with lastOperationId := operationId, updatedAt := now }

variable {now} in
theorem key_stamp {operationId : OperationId} {f : Registration → Registration}
    (hf : ∀ row, (f row).key = row.key) (row : Registration) :
    (stamp now operationId f row).key = row.key :=
  hf row

/-- The update of one row, with its stamp. -/
def updateOne (eventId : EventId) (participantKey : ParticipantKey) (operationId : OperationId)
    (f : Registration → Registration) (hf : ∀ row, (f row).key = row.key) : Registrations :=
  rows.update (fun row => (isRow eventId participantKey row).and (isUnstamped operationId row))
    (stamp now operationId f) (key_stamp hf)

/-- The update of the rows that are named, with their stamps. -/
def updateMany (eventId : EventId) (participantKeys : List ParticipantKey) (operationId : OperationId)
    (f : Registration → Registration) (hf : ∀ row, (f row).key = row.key) : Registrations :=
  rows.update (fun row => (isNamed eventId participantKeys row).and (isUnstamped operationId row))
    (stamp now operationId f) (key_stamp hf)

/-- No update writes a part of the key. -/
theorem key_kept (row : Registration) : row.key = row.key := rfl

/-- `list_page_for_event`: the rows before a cursor are read backwards. -/
def listPageForEvent (eventId : EventId) (page : RegistrationPage) :
    Except Fault (Except Fault (List Registration)) :=
  if page.after.isSome ∧ page.before.isSome then
    .ok (.error (.valueError "only one registration-page cursor may be supplied"))
  else if page.statuses = some [] then .ok (.ok [])
  else
    let chosen := (rows.ofEvent eventId).filter fun row =>
      page.statuses.all (row.attendanceStatus ∈ ·) && page.after.all (· < listKey row) &&
        page.before.all (listKey row < ·)
    let found :=
      if page.before.isSome then ((sortBy listKey chosen).reverse.take page.limit).reverse
      else (sortBy listKey chosen).take page.limit
    let times := (page.after.toList ++ page.before.toList).map fun cursor => (ofLex cursor).1
    (ydbQuery times rows (.ok found) rows).1

/-- `insert_if_absent`, row by row; each insertion is a transaction of its own. -/
def importMissing : List Registration → Registrations → Except Fault Unit × Registrations
  | [], rows => (.ok (), rows)
  | registration :: registrations, rows =>
    if (rows.find? registration.key).isSome then importMissing registrations rows
    else if [registration.createdAt, registration.updatedAt].all isTimestamp then
      importMissing registrations
        (rows.insertNew { registration with answerId := none, answerQueueAt := none })
    else (.error .timestamp, rows)

/-- `MAX(created_at)` of the active rows. -/
def latest (eventId : EventId) : Option Time :=
  (((rows.ofEvent eventId).filter isActive).map Registration.createdAt).max?

def enlistTime (eventId : EventId) : Time :=
  match latest rows eventId with
  | none => now
  | some latest => max now (latest + microsecond)

/-- `_save` puts a row under its key. -/
def save (row : Registration) : Except Fault Bool × Registrations :=
  ydbQuery [row.createdAt, row.updatedAt] rows true (rows.insert row)

def enlist (eventId : EventId) (a : EnlistArguments) : Except Fault Bool × Registrations :=
  let a := { a with answerId := none }
  match rows.get eventId a.participantKey with
  | none => save rows (a.newRow eventId now (enlistTime rows now eventId))
  | some row =>
    if row.lastOperationId = a.operationId then (.ok false, rows)
    else save rows (a.rewrite now (enlistTime rows now eventId) row)

def updateProfile (eventId : EventId) (operationId : OperationId) (participantKey : ParticipantKey)
    (a : ProfileArguments) : Except Fault Bool × Registrations :=
  ydbQuery [now] rows true
    (updateOne rows now eventId participantKey operationId a.rewrite key_kept)

def confirm (eventId : EventId) (operationId : OperationId) (participantKey : ParticipantKey)
    (characterWish : String) (replacedEventId : Option EventId)
    (replacedParticipantKey : Option ParticipantKey) :
    Except Fault (Except Fault Bool) × Registrations :=
  if replacedEventId.isNone ≠ replacedParticipantKey.isNone then
    (.ok (.error (.valueError "replacement event and participant key must be supplied together")), rows)
  else if replacedEventId = some eventId then
    (.ok (.error (.valueError "replacement event must differ from the confirmed event")), rows)
  else
    let kept := match replacedEventId, replacedParticipantKey with
      | some replacedEvent, some replacedKey => rows.delete (isRow replacedEvent replacedKey)
      | _, _ => rows
    ydbQuery [now] rows (.ok true)
      (updateOne kept now eventId participantKey operationId (confirmRow characterWish) key_kept)

def confirmLinked (eventId : EventId) (operationId : OperationId)
    (participantKeys : List ParticipantKey) (characterWish : String)
    (replacedEventId : Option EventId) (replacedParticipantKeys : List ParticipantKey) :
    Except Fault (Except Fault Bool) × Registrations :=
  if replacedEventId.isNone ≠ replacedParticipantKeys.isEmpty then
    (.ok (.error (.valueError "replacement event and participant keys must be supplied together")), rows)
  else if replacedEventId = some eventId then
    (.ok (.error (.valueError "replacement event must differ from the confirmed event")), rows)
  else
    let replaced := match replacedEventId with
      | none => rows
      | some replacedEvent =>
        updateMany rows now replacedEvent replacedParticipantKeys operationId cancelRow key_kept
    ydbQuery [now] rows (.ok true)
      (updateMany replaced now eventId participantKeys operationId (confirmRow characterWish)
        key_kept)

def updateCharacterWish (eventId : EventId) (operationId : OperationId)
    (participantKey : ParticipantKey) (characterWish : String) :
    Except Fault (Except Fault Bool) × Registrations :=
  ydbQuery [now] rows (.ok true)
    (updateOne rows now eventId participantKey operationId
      (fun row => { row with characterWish := characterWish }) key_kept)

def updateLinkedCharacterWish (eventId : EventId) (operationId : OperationId)
    (participantKeys : List ParticipantKey) (characterWish : String) :
    Except Fault Bool × Registrations :=
  ydbQuery [now] rows true
    (updateMany rows now eventId participantKeys operationId
      (fun row => { row with characterWish := characterWish }) key_kept)

def updateCoPlayerWish (eventId : EventId) (operationId : OperationId)
    (participantKey : ParticipantKey) (wishPlay : String) :
    Except Fault (Except Fault Bool) × Registrations :=
  ydbQuery [now] rows (.ok true)
    (updateOne rows now eventId participantKey operationId
      (fun row => { row with wishPlay := wishPlay }) key_kept)

def updateLinkedCoPlayerWish (eventId : EventId) (operationId : OperationId)
    (participantKeys : List ParticipantKey) (wishPlay : String) : Except Fault Bool × Registrations :=
  ydbQuery [now] rows true
    (updateMany rows now eventId participantKeys operationId
      (fun row => { row with wishPlay := wishPlay }) key_kept)

def cancel (eventId : EventId) (operationId : OperationId) (participantKey : ParticipantKey) :
    Except Fault (Except Fault Bool) × Registrations :=
  ydbQuery [now] rows (.ok true)
    (updateOne rows now eventId participantKey operationId cancelRow key_kept)

def cancelLinked (eventId : EventId) (operationId : OperationId)
    (participantKeys : List ParticipantKey) : Except Fault Bool × Registrations :=
  ydbQuery [now] rows true
    (updateMany rows now eventId participantKeys operationId cancelRow key_kept)

/-- The row is waiting in the event. -/
def isWaiting (eventId : EventId) (row : Registration) : Truth :=
  (Truth.is (row.eventId = eventId)).and (.is (row.attendanceStatus = .waiting))

/-- The place of a row is its `created_at`. -/
def placeRow (queueAt : Time) (row : Registration) : Registration :=
  { row with createdAt := queueAt }

/-- `created_at + $shift` -/
def moveRow (shift : Time) (row : Registration) : Registration :=
  placeRow (row.createdAt + shift) row

theorem key_moveRow (shift : Time) (row : Registration) : (moveRow shift row).key = row.key := rfl

/-- `sift_waiting_to_end`: `Unwrap` fails if one of the sums is no `Timestamp`. -/
def siftWaitingToEnd (eventId : EventId) : Except Fault (Except Fault Unit) × Registrations :=
  let times := ((rows.ofEvent eventId).filter isActive).map Registration.createdAt
  match times.max?, times.min? with
  | some latest, some earliest =>
    let shift := latest - earliest + microsecond
    let moved := (rows.rows.filter fun row => (isWaiting eventId row).holds).map (·.createdAt + shift)
    ydbQuery (shift :: moved) rows (.ok ())
      (rows.update (isWaiting eventId) (moveRow shift) (key_moveRow shift))
  | _, _ => (.ok (.ok ()), rows)

/-- `swap_queue_positions`: two updates, each with a guard of its own. -/
def swapQueuePositions (eventId : EventId) (a : SwapArguments) : Except Fault Bool × Registrations :=
  let promoted := updateOne rows now eventId a.promotedParticipantKey a.operationId
    (placeRow a.demotedCreatedAt) key_kept
  ydbQuery [a.promotedCreatedAt, a.demotedCreatedAt, now] rows true
    (updateOne promoted now eventId a.demotedParticipantKey a.operationId
      (placeRow a.promotedCreatedAt) key_kept)

def remove (eventId : EventId) (participantKey : ParticipantKey) : Except Fault Bool × Registrations :=
  (.ok true, rows.delete (isRow eventId participantKey))

def removeMany (eventId : EventId) (participantKeys : List ParticipantKey) :
    Except Fault Unit × Registrations :=
  if participantKeys = [] then (.ok (), rows)
  else (.ok (), rows.delete (isNamed eventId participantKeys))

def deleteForEvent (eventId : EventId) : Except Fault Unit × Registrations :=
  (.ok (), rows.delete fun row => .is (row.eventId = eventId))

end YdbRegistrations

/-! ## The methods of both repositories -/

/-- A call on an event without a question. `update_answer` is no method of the YDB repository, and its
`enlist` takes no answer. -/
def RegistrationCall.Questionless : RegistrationCall → Prop
  | updateAnswer _ _ _ _ => False
  | enlist _ a => a.answerId = none
  | importMissing registrations =>
    ∀ row ∈ registrations, row.answerId = none ∧ row.answerQueueAt = none
  | _ => True

inductive RegistrationQuery
  | of (c : RegistrationCall) (h : c.Questionless)
  | listPageForEvent (eventId : EventId) (page : RegistrationPage)
  | removeMany (eventId : EventId) (participantKeys : List ParticipantKey)

namespace RegistrationQuery

@[reducible] def Ans : RegistrationQuery → Type
  | of c _ => c.Ans
  | listPageForEvent _ _ => Except Fault (List Registration)
  | removeMany _ _ => Unit

/-- Besides what a method answers or raises itself, its query may fail. -/
abbrev signature : Signature :=
  ⟨RegistrationQuery, fun m => Except Fault m.Ans⟩

/-- `MemoryRegistrationRepository`. -/
def memory : Handler signature Registrations Time
  | of c _, now, rows => ((.ok (c.perform now rows).1), (c.perform now rows).2)
  | listPageForEvent eventId page, _, rows => (.ok (rows.listPageForEvent eventId page), rows)
  | removeMany eventId keys, _, rows => (.ok (), rows.removeMany eventId keys)

/-- `YdbRegistrationRepository`. -/
def ydb : Handler signature Registrations Time
  | of (.get eventId key) _, _, rows => (.ok (rows.get eventId key), rows)
  | of (.listForEvent eventId) _, _, rows => (.ok (rows.listForEvent eventId), rows)
  | of (.findByTelegramProfile profile) _, _, rows => (.ok (rows.findByTelegramProfile profile), rows)
  | of (.importMissing registrations) _, _, rows => YdbRegistrations.importMissing registrations rows
  | of (.enlist eventId a) _, now, rows => YdbRegistrations.enlist rows now eventId a
  | of (.updateAnswer _ _ _ _) h, _, _ => h.elim
  | of (.updateProfile eventId op key a) _, now, rows =>
    YdbRegistrations.updateProfile rows now eventId op key a
  | of (.confirm eventId op key wish replaced replacedKey) _, now, rows =>
    YdbRegistrations.confirm rows now eventId op key wish replaced replacedKey
  | of (.confirmLinked eventId op keys wish replaced replacedKeys) _, now, rows =>
    YdbRegistrations.confirmLinked rows now eventId op keys wish replaced replacedKeys
  | of (.updateCharacterWish eventId op key wish) _, now, rows =>
    YdbRegistrations.updateCharacterWish rows now eventId op key wish
  | of (.updateLinkedCharacterWish eventId op keys wish) _, now, rows =>
    YdbRegistrations.updateLinkedCharacterWish rows now eventId op keys wish
  | of (.updateCoPlayerWish eventId op key wish) _, now, rows =>
    YdbRegistrations.updateCoPlayerWish rows now eventId op key wish
  | of (.updateLinkedCoPlayerWish eventId op keys wish) _, now, rows =>
    YdbRegistrations.updateLinkedCoPlayerWish rows now eventId op keys wish
  | of (.cancel eventId op key) _, now, rows => YdbRegistrations.cancel rows now eventId op key
  | of (.cancelLinked eventId op keys) _, now, rows =>
    YdbRegistrations.cancelLinked rows now eventId op keys
  | of (.siftWaitingToEnd eventId) _, _, rows => YdbRegistrations.siftWaitingToEnd rows eventId
  | of (.swapQueuePositions eventId a) _, now, rows =>
    YdbRegistrations.swapQueuePositions rows now eventId a
  | of (.remove eventId key) _, _, rows => YdbRegistrations.remove rows eventId key
  | of (.deleteForEvent eventId) _, _, rows => YdbRegistrations.deleteForEvent rows eventId
  | listPageForEvent eventId page, _, rows =>
    (YdbRegistrations.listPageForEvent rows eventId page, rows)
  | removeMany eventId keys, _, rows => YdbRegistrations.removeMany rows eventId keys

end RegistrationQuery

end LarpBot
