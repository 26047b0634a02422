import LarpBot.Domain.RegistrationQueues

/-!
# The registration repository

`MemoryRegistrationRepository`, one function for each method. A method takes the table and the
instant it runs at (it reads the clock once) and returns its answer with the table it leaves. The
loops over participant keys of the linked methods visit each stored row at most once with effect,
because a visit stamps the row with the operation; they are one rewrite of the rows that are named
and not stamped yet.
-/

namespace LarpBot

open Atomic

/-- What a repository or an integration may raise besides a domain error. All of these are
retryable for the worker. -/
inductive Fault
  | keyError
  | valueError (text : String)
  | runtimeError (text : String)
  | assertionError
  | stopIteration
  | overflowError
  | integration (text : String)
deriving DecidableEq, Repr

/-- The `ValueError` of `answer_capacity`. -/
def Fault.missingAnswer : Fault :=
  .valueError "У записи отсутствует действующий ответ на дополнительный вопрос"

/-- `datetime.max`; a sum past it raises `OverflowError`. -/
def datetimeMax : Time := 253402300799999999

abbrev Registrations := Table Registration.key

namespace Registrations

variable (rows : Registrations) (now : Time)

def get (eventId : EventId) (participantKey : ParticipantKey) : Option Registration :=
  rows.find? (eventId, participantKey)

variable {rows} in
theorem key_of_get {eventId : EventId} {participantKey : ParticipantKey} {row : Registration}
    (h : rows.get eventId participantKey = some row) : row.key = (eventId, participantKey) :=
  Table.key_of_find? h

variable {rows} in
theorem mem_of_get {eventId : EventId} {participantKey : ParticipantKey} {row : Registration}
    (h : rows.get eventId participantKey = some row) : row ∈ rows.rows :=
  Table.mem_of_find? h

variable {rows} in
theorem get_modify {eventId : EventId} {participantKey : ParticipantKey} {row : Registration}
    {f : Registration → Registration} (hf : ∀ row, (f row).key = row.key)
    (h : rows.get eventId participantKey = some row) :
    Registrations.get (rows.modify (eventId, participantKey) f hf) eventId participantKey =
      some (f row) := by
  rw [get] at h
  rw [get, Table.find?_modify_self, h, Option.map_some]

/-- The rows of an event, in no particular order. -/
def ofEvent (eventId : EventId) : List Registration :=
  rows.rows.filter fun row => row.eventId = eventId

/-- The key of `list_for_event`: the creation instant and then the participant key. -/
def listKey (row : Registration) : Time ×ₗ ParticipantKey :=
  toLex (row.createdAt, row.participantKey)

def listForEvent (eventId : EventId) : List Registration :=
  sortBy listKey (rows.ofEvent eventId)

def findByTelegramProfile (profile : String) : List Registration :=
  sortBy (fun row => toLex row.key) (rows.rows.filter (·.telegramProfile = some profile))

/-- `setdefault` of every imported row. -/
def importMissing (registrations : List Registration) : Registrations :=
  registrations.foldl Table.insertNew rows

/-- The largest queue instant of an event's active rows that pass a test. -/
def latest (eventId : EventId) (p : Registration → Bool) : Option Time :=
  (((rows.ofEvent eventId).filter fun row => isActive row && p row).map queueTime).max?

structure EnlistArguments where
  operationId : OperationId
  participantKey : ParticipantKey
  displayName : String
  nickname : Option String := none
  wishPlay : String
  larpExperience : Option Bool := none
  crossplay : Option Bool := none
  vkProfile : String := ""
  telegramProfile : Option String := none
  answerId : Option String := none

/-- The instant at which a new or returning row queues: now, but behind every active row. -/
def enlistTime (eventId : EventId) : Time :=
  match rows.latest eventId (fun _ => true) with
  | none => now
  | some latest => max now (latest + microsecond)

/-- The fields that `enlist` writes into a stored row; `queueTime` is the row's new place. -/
def EnlistArguments.rewrite (a : EnlistArguments) (now queueTime : Time) (row : Registration) :
    Registration :=
  { row with
    displayName := a.displayName
    nickname := a.nickname
    wishPlay := a.wishPlay
    larpExperience := a.larpExperience
    crossplay := a.crossplay
    vkProfile := a.vkProfile
    telegramProfile := a.telegramProfile
    attendanceStatus := if isActive row then row.attendanceStatus else .waiting
    createdAt := if isActive row then row.createdAt else queueTime
    answerId := a.answerId
    answerQueueAt := if a.answerId.isSome then some queueTime else none
    lastOperationId := a.operationId
    updatedAt := now }

theorem EnlistArguments.isActive_rewrite (a : EnlistArguments) (now queueTime : Time)
    (row : Registration) : isActive (a.rewrite now queueTime row) = true := by
  unfold rewrite isActive
  cases row.attendanceStatus <;> simp

/-- The row that `enlist` creates. -/
def EnlistArguments.newRow (a : EnlistArguments) (eventId : EventId) (now queueTime : Time) :
    Registration where
  eventId := eventId
  participantKey := a.participantKey
  displayName := a.displayName
  nickname := a.nickname
  wishPlay := a.wishPlay
  larpExperience := a.larpExperience
  crossplay := a.crossplay
  vkProfile := a.vkProfile
  telegramProfile := a.telegramProfile
  answerId := a.answerId
  answerQueueAt := if a.answerId.isSome then some queueTime else none
  lastOperationId := a.operationId
  createdAt := queueTime
  updatedAt := now

def enlist (eventId : EventId) (a : EnlistArguments) : Bool × Registrations :=
  match rows.get eventId a.participantKey with
  | none => (true, rows.insertNew (a.newRow eventId now (rows.enlistTime now eventId)))
  | some row =>
    if row.lastOperationId = a.operationId then (false, rows)
    else
      let queueTime := if isActive row then now else rows.enlistTime now eventId
      (true, rows.modify (eventId, a.participantKey) (a.rewrite now queueTime))

/-- The stored rows of an event under some participant keys. -/
def named (eventId : EventId) (participantKeys : List ParticipantKey) : List Registration :=
  (rows.ofEvent eventId).filter fun row => row.participantKey ∈ participantKeys

def updateAnswer (eventId : EventId) (operationId : OperationId)
    (participantKeys : List ParticipantKey) (answerId : String) : Bool × Registrations :=
  let actor := rows.named eventId participantKeys
  if actor.isEmpty || actor.all (·.lastOperationId = operationId) then (false, rows)
  else if actor.all (·.answerId = some answerId) then (false, rows)
  else
    let latest := (rows.latest eventId (·.answerId = some answerId)).getD now
    let queueTime := max now (latest + microsecond)
    (true, rows.mapRows (fun row =>
      if row.eventId = eventId ∧ row.participantKey ∈ participantKeys then
        { row with
          answerId := some answerId
          answerQueueAt := some queueTime
          lastOperationId := operationId
          updatedAt := now }
      else row) fun row => by split <;> rfl)

/-- Rewrite one stored row unless the operation has stamped it, and stamp it. -/
def stampOne (eventId : EventId) (participantKey : ParticipantKey) (operationId : OperationId)
    (f : Registration → Registration) (hf : ∀ row, (f row).key = row.key) : Bool × Registrations :=
  match rows.get eventId participantKey with
  | none => (false, rows)
  | some row =>
    if row.lastOperationId = operationId then (false, rows)
    else (true, rows.modify (eventId, participantKey)
      (fun row => { f row with lastOperationId := operationId, updatedAt := now }) hf)

/-- The rows of an event that are named and that the operation has not stamped yet. -/
def unstamped (eventId : EventId) (participantKeys : List ParticipantKey)
    (operationId : OperationId) (row : Registration) : Bool :=
  row.eventId = eventId && row.participantKey ∈ participantKeys &&
    row.lastOperationId ≠ operationId

/-- Rewrite every named row that the operation has not stamped yet, and stamp it. -/
def stampMany (eventId : EventId) (participantKeys : List ParticipantKey)
    (operationId : OperationId) (f : Registration → Registration)
    (hf : ∀ row, (f row).key = row.key) : Bool × Registrations :=
  (rows.rows.any (unstamped eventId participantKeys operationId),
    rows.mapRows (fun row =>
      if unstamped eventId participantKeys operationId row then
        { f row with lastOperationId := operationId, updatedAt := now }
      else row) fun row => by split; exacts [hf row, rfl])

/-- `stampOne` for the methods that read the row with `self.rows[...]`. -/
def stampExisting (eventId : EventId) (participantKey : ParticipantKey) (operationId : OperationId)
    (f : Registration → Registration) (hf : ∀ row, (f row).key = row.key) :
    Except Fault Bool × Registrations :=
  match rows.get eventId participantKey with
  | none => (.error .keyError, rows)
  | some _ =>
    let stamped := rows.stampOne now eventId participantKey operationId f hf
    (.ok stamped.1, stamped.2)

structure ProfileArguments where
  displayName : String
  nickname : Option String
  larpExperience : Bool
  crossplay : Bool
  vkProfile : String
  telegramProfile : Option String

def ProfileArguments.rewrite (a : ProfileArguments) (row : Registration) : Registration :=
  { row with
    displayName := a.displayName
    nickname := a.nickname
    larpExperience := some a.larpExperience
    crossplay := some a.crossplay
    vkProfile := a.vkProfile
    telegramProfile := a.telegramProfile }

def updateProfile (eventId : EventId) (operationId : OperationId) (participantKey : ParticipantKey)
    (a : ProfileArguments) : Bool × Registrations :=
  rows.stampOne now eventId participantKey operationId a.rewrite fun _ => rfl

/-- What a confirmation writes into a row. -/
def confirmRow (characterWish : String) (row : Registration) : Registration :=
  { row with characterWish := characterWish, attendanceStatus := .confirmed }

/-- What a cancellation writes into a row. -/
def cancelRow (row : Registration) : Registration :=
  { row with attendanceStatus := .cancelled }

def confirm (eventId : EventId) (operationId : OperationId) (participantKey : ParticipantKey)
    (characterWish : String) (replacedEventId : Option EventId)
    (replacedParticipantKey : Option ParticipantKey) : Except Fault Bool × Registrations :=
  if replacedEventId.isNone ≠ replacedParticipantKey.isNone then
    (.error (.valueError "replacement event and participant key must be supplied together"), rows)
  else if replacedEventId = some eventId then
    (.error (.valueError "replacement event must differ from the confirmed event"), rows)
  else
    match rows.get eventId participantKey with
    | none => (.error .keyError, rows)
    | some _ =>
      -- the replaced row goes before the stamp of the confirmed row is looked at
      let kept := match replacedEventId, replacedParticipantKey with
        | some replacedEvent, some replacedKey => rows.erase (replacedEvent, replacedKey)
        | _, _ => rows
      let stamped := Registrations.stampOne kept now eventId participantKey operationId
        (confirmRow characterWish) fun _ => rfl
      (.ok stamped.1, stamped.2)

def confirmLinked (eventId : EventId) (operationId : OperationId)
    (participantKeys : List ParticipantKey) (characterWish : String)
    (replacedEventId : Option EventId) (replacedParticipantKeys : List ParticipantKey) :
    Except Fault Bool × Registrations :=
  if replacedEventId.isNone ≠ replacedParticipantKeys.isEmpty then
    (.error (.valueError "replacement event and participant keys must be supplied together"), rows)
  else if replacedEventId = some eventId then
    (.error (.valueError "replacement event must differ from the confirmed event"), rows)
  else
    let replaced := match replacedEventId with
      | none => (false, rows)
      | some replacedEvent =>
        rows.stampMany now replacedEvent replacedParticipantKeys operationId cancelRow fun _ => rfl
    let confirmed := Registrations.stampMany replaced.2 now eventId participantKeys operationId
      (confirmRow characterWish) fun _ => rfl
    (.ok (replaced.1 || confirmed.1), confirmed.2)

def updateCharacterWish (eventId : EventId) (operationId : OperationId)
    (participantKey : ParticipantKey) (characterWish : String) :
    Except Fault Bool × Registrations :=
  rows.stampExisting now eventId participantKey operationId
    (fun row => { row with characterWish := characterWish }) fun _ => rfl

def updateLinkedCharacterWish (eventId : EventId) (operationId : OperationId)
    (participantKeys : List ParticipantKey) (characterWish : String) : Bool × Registrations :=
  rows.stampMany now eventId participantKeys operationId
    (fun row => { row with characterWish := characterWish }) fun _ => rfl

def updateCoPlayerWish (eventId : EventId) (operationId : OperationId)
    (participantKey : ParticipantKey) (wishPlay : String) : Except Fault Bool × Registrations :=
  rows.stampExisting now eventId participantKey operationId
    (fun row => { row with wishPlay := wishPlay }) fun _ => rfl

def updateLinkedCoPlayerWish (eventId : EventId) (operationId : OperationId)
    (participantKeys : List ParticipantKey) (wishPlay : String) : Bool × Registrations :=
  rows.stampMany now eventId participantKeys operationId
    (fun row => { row with wishPlay := wishPlay }) fun _ => rfl

def cancel (eventId : EventId) (operationId : OperationId) (participantKey : ParticipantKey) :
    Except Fault Bool × Registrations :=
  rows.stampExisting now eventId participantKey operationId cancelRow fun _ => rfl

def cancelLinked (eventId : EventId) (operationId : OperationId)
    (participantKeys : List ParticipantKey) : Bool × Registrations :=
  rows.stampMany now eventId participantKeys operationId cancelRow fun _ => rfl

/-- One microsecond more than the spread of the queue instants of an event's active rows. -/
def siftShift (eventId : EventId) : Time :=
  let times := ((rows.ofEvent eventId).filter isActive).map queueTime
  (times.max?.getD 0) - (times.min?.getD 0) + microsecond

theorem siftShift_pos (eventId : EventId) : 0 < rows.siftShift eventId := by
  unfold siftShift
  dsimp only
  generalize ((rows.ofEvent eventId).filter isActive).map queueTime = times
  cases hmax : times.max? with
  | none =>
    rw [List.max?_eq_none_iff] at hmax
    subst hmax
    simp
  | some latest =>
    have hmem : latest ∈ times := (List.max?_eq_some_iff.mp hmax).1
    cases hmin : times.min? with
    | none =>
      rw [List.min?_eq_none_iff.mp hmin] at hmem
      exact absurd hmem List.not_mem_nil
    | some earliest =>
      have hle : earliest ≤ latest := (List.min?_eq_some_iff.mp hmin).2 latest hmem
      exact Int.lt_add_one_of_le (Int.sub_nonneg_of_le hle)

/-- The instant that a sift moves. -/
def siftedTime (row : Registration) : Time :=
  if row.answerId.isSome then queueTime row else row.createdAt

/-- What the sift does to a waiting row: its place moves by `shift`. -/
def siftRow (shift : Time) (row : Registration) : Registration :=
  if row.answerId.isSome then { row with answerQueueAt := some (queueTime row + shift) }
  else { row with createdAt := row.createdAt + shift }

@[simp] theorem key_siftRow (shift : Time) (row : Registration) :
    (siftRow shift row).key = row.key := by
  unfold siftRow; split <;> rfl

/-- The waiting rows of an event. -/
def waiting (eventId : EventId) : List Registration :=
  rows.rows.filter fun row => row.eventId = eventId ∧ row.attendanceStatus = .waiting

/-- The rows with the waiting ones behind all others. -/
def sifted (eventId : EventId) : Registrations :=
  rows.mapRows (fun row =>
    if row.eventId = eventId ∧ row.attendanceStatus = .waiting then
      siftRow (rows.siftShift eventId) row
    else row) fun row => by split; exacts [key_siftRow _ row, rfl]

/-- The sift, where each moved place is a `datetime`; else a sum raises, and nothing is stored. -/
def siftWaitingToEnd (eventId : EventId) : Except Fault Unit × Registrations :=
  if (rows.waiting eventId).all fun row => siftedTime row + rows.siftShift eventId ≤ datetimeMax then
    (.ok (), rows.sifted eventId)
  else (.error .overflowError, rows)

structure SwapArguments where
  operationId : OperationId
  promotedParticipantKey : ParticipantKey
  promotedCreatedAt : Time
  demotedParticipantKey : ParticipantKey
  demotedCreatedAt : Time

/-- A row that takes the place of another in its queue. -/
def placeRow (operationId : OperationId) (now queueAt : Time) (row : Registration) : Registration :=
  { row with
    answerQueueAt := if row.answerId.isSome then some queueAt else row.answerQueueAt
    createdAt := if row.answerId.isSome then row.createdAt else queueAt
    lastOperationId := operationId
    updatedAt := now }

def swapQueuePositions (eventId : EventId) (a : SwapArguments) : Bool × Registrations :=
  match rows.get eventId a.promotedParticipantKey, rows.get eventId a.demotedParticipantKey with
  | some promoted, some demoted =>
    if promoted.lastOperationId = a.operationId ∧ demoted.lastOperationId = a.operationId then
      (false, rows)
    else
      (true, (rows.modify (eventId, a.promotedParticipantKey)
        (placeRow a.operationId now a.demotedCreatedAt)).modify
          (eventId, a.demotedParticipantKey) (placeRow a.operationId now a.promotedCreatedAt))
  | _, _ => (false, rows)

def remove (eventId : EventId) (participantKey : ParticipantKey) : Bool × Registrations :=
  ((rows.get eventId participantKey).isSome, rows.erase (eventId, participantKey))

def deleteForEvent (eventId : EventId) : Registrations :=
  rows.filter fun row => row.eventId ≠ eventId

end Registrations

end LarpBot
