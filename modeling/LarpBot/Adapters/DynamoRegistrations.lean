import Mathlib
import LarpBot.Adapters.DynamoEvents

/-!
# The registration repository on DynamoDB

`DynamoRegistrationRepository`: the registrations of an event are one partition, and the item of a
registration also holds the requests of the participation messages that were delivered to it. A method
loads the rows of an event, or the rows that its arguments name one by one.
-/

namespace LarpBot

open Atomic

abbrev RegistrationKey := EventId × ParticipantKey

/-! ## The memory repository with its deliveries -/

/-- `MemoryRegistrationRepository`: the rows and the set `participation_deliveries`. -/
structure RegistrationMemory where
  rows : Registrations
  deliveries : Finset (RegistrationKey × String)

/-- The cursor of a page. -/
structure RegistrationPage where
  statuses : Option (List AttendanceStatus) := none
  after : Option (Time ×ₗ ParticipantKey) := none
  before : Option (Time ×ₗ ParticipantKey) := none
  limit : Nat := 10

namespace Registrations

variable (rows : Registrations)

def listPageForEvent (eventId : EventId) (page : RegistrationPage) :
    Except Fault (List Registration) :=
  if page.after.isSome ∧ page.before.isSome then
    .error (.valueError "only one registration-page cursor may be supplied")
  else
    let accepted := (rows.ofEvent eventId).filter fun row =>
      page.statuses.all (row.attendanceStatus ∈ ·)
    let values := (sortBy listKey accepted).filter fun row => page.after.all (· < listKey row)
    .ok <| match page.before with
      | none => values.take page.limit
      | some before =>
        let values := values.filter fun row => listKey row < before
        -- `values[-0:]` is the whole list, but the limit then takes nothing of it
        (values.drop (values.length - page.limit)).take page.limit

def removeMany (eventId : EventId) (participantKeys : List ParticipantKey) : Registrations :=
  rows.filter fun row => ¬ (row.eventId = eventId ∧ row.participantKey ∈ participantKeys)

end Registrations

/-- What a call has raised. -/
def RegistrationCall.raised : (c : RegistrationCall) → c.Ans → Option Fault
  | confirm _ _ _ _ _ _, answer | confirmLinked _ _ _ _ _ _, answer
  | updateCharacterWish _ _ _ _, answer | updateCoPlayerWish _ _ _ _, answer
  | cancel _ _ _, answer => EventCall.raised.failure answer
  | siftWaitingToEnd _, answer => EventCall.raised.failure answer
  | _, _ => none

/-- The sums of instants that a method forms. -/
def RegistrationCall.sums : RegistrationCall → Time → Registrations → List Time
  | enlist e a, _, t =>
    -- an active row keeps its place, and a row with the stamp is left alone
    let takesPlace := (t.get e a.participantKey).all fun row =>
      row.lastOperationId ≠ a.operationId && !isActive row
    if takesPlace then ((t.latest e fun _ => true).map (· + microsecond)).toList else []
  | updateAnswer e op keys answerId, now, t =>
    let actor := t.named e keys
    if actor.isEmpty || actor.all (·.lastOperationId = op) || actor.all (·.answerId = some answerId) then
      []
    else [(t.latest e (·.answerId = some answerId)).getD now + microsecond]
  | siftWaitingToEnd e, _, t => (t.waiting e).map (Registrations.siftedTime · + t.siftShift e)
  | _, _, _ => []

/-- A call with what it raises: `OverflowError` where a sum is past `datetime.max`, or what the method
raises itself. -/
def RegistrationCall.performWithin (c : RegistrationCall) (now : Time) (t : Registrations) :
    Except Fault (c.Ans × Registrations) :=
  if (c.sums now t).all (· ≤ datetimeMax) then
    match c.raised (c.perform now t).1 with
    | some fault => .error fault
    | none => .ok (c.perform now t)
  else .error .overflowError

/-! ## Items -/

structure RegistrationDocument where
  payload : Registration
  participationDeliveries : Finset String
deriving DecidableEq

def RegistrationDocument.key (document : RegistrationDocument) : RegistrationKey :=
  document.payload.key

abbrev RegistrationItems := Store RegistrationDocument.key

namespace RegistrationItems

/-- The items that `_load` has parsed, as a memory repository. -/
def load (original : RegistrationItems) : RegistrationMemory where
  rows := .ofList (original.rows.map (·.document.payload))
  deliveries := original.rows.toFinset.biUnion fun item =>
    item.document.participationDeliveries.image (item.document.key, ·)

/-- `deliveries_by_key`. -/
def deliveriesOf (deliveries : Finset (RegistrationKey × String)) (k : RegistrationKey) :
    Finset String :=
  (deliveries.filter (·.1 = k)).image Prod.snd

/-- `_desired`. -/
def desired (memory : RegistrationMemory) : Table RegistrationDocument.key :=
  .ofList (memory.rows.rows.map fun row => ⟨row, deliveriesOf memory.deliveries row.key⟩)

/-! ### What is loaded and what is wanted -/

variable {original : RegistrationItems} {memory : RegistrationMemory} {k : RegistrationKey}
  {item : Item RegistrationDocument}

theorem rows_load : (load original).rows.rows = original.rows.map (·.document.payload) := by
  refine Table.rows_ofList ?_
  rw [List.map_map]
  exact original.nodup

theorem rows_desired : (desired memory).rows =
    memory.rows.rows.map fun row => ⟨row, deliveriesOf memory.deliveries row.key⟩ := by
  refine Table.rows_ofList ?_
  rw [List.map_map]
  exact memory.rows.nodup

theorem mem_deliveriesOf {deliveries : Finset (RegistrationKey × String)} {request : String} :
    request ∈ deliveriesOf deliveries k ↔ (k, request) ∈ deliveries := by
  simp only [deliveriesOf, Finset.mem_image, Finset.mem_filter]
  constructor
  · rintro ⟨⟨k', request'⟩, ⟨hmem, rfl⟩, rfl⟩
    exact hmem
  · intro hmem
    exact ⟨(k, request), ⟨hmem, rfl⟩, rfl⟩

theorem mem_load_deliveries {request : String} : (k, request) ∈ (load original).deliveries ↔
    ∃ item ∈ original.rows, item.document.key = k ∧
      request ∈ item.document.participationDeliveries := by
  simp only [load, Finset.mem_biUnion, List.mem_toFinset, Finset.mem_image, Prod.mk.injEq]
  constructor
  · rintro ⟨item, hitem, request', hmem, hkey, rfl⟩
    exact ⟨item, hitem, hkey, hmem⟩
  · rintro ⟨item, hitem, hkey, hmem⟩
    exact ⟨item, hitem, request, hmem, hkey, rfl⟩

/-- The deliveries of an item are loaded with it. -/
theorem deliveriesOf_load (hitem : item ∈ original.rows) :
    deliveriesOf (load original).deliveries item.document.key =
      item.document.participationDeliveries := by
  ext request
  rw [mem_deliveriesOf, mem_load_deliveries]
  constructor
  · rintro ⟨other, hother, hkey, hmem⟩
    rwa [Table.eq_of_key_eq hother hitem hkey] at hmem
  · exact fun hmem => ⟨item, hitem, rfl, hmem⟩

end RegistrationItems

/-! ## The methods -/

/-- What `_registration_rows_for_call` loads. -/
inductive RegistrationRows
  | telegramProfile (profile : String)
  | event (eventId : EventId)
  | items (keys : List RegistrationKey)

inductive RegistrationMethod
  | of (c : RegistrationCall)
  | listPageForEvent (eventId : EventId) (page : RegistrationPage)
  | participationNotificationDelivered (eventId : EventId) (participantKey : ParticipantKey)
      (requestId : String)
  | markParticipationNotificationDelivered (eventId : EventId) (participantKey : ParticipantKey)
      (requestId : String)
  | removeMany (eventId : EventId) (participantKeys : List ParticipantKey)

namespace RegistrationMethod

@[reducible] def Ans : RegistrationMethod → Type
  | of c => c.Ans
  | listPageForEvent _ _ => List Registration
  | participationNotificationDelivered _ _ _ => Bool
  | markParticipationNotificationDelivered _ _ _ | removeMany _ _ => Unit

/-- The rows of the linked methods: the named rows, and those of the replaced event. -/
def linkedItems (eventId : EventId) (participantKeys : List ParticipantKey)
    (replacedEventId : Option EventId) (replacedParticipantKeys : List ParticipantKey) :
    RegistrationRows :=
  .items <| participantKeys.map (eventId, ·) ++ match replacedEventId with
    | some replacedEvent => replacedParticipantKeys.map (replacedEvent, ·)
    | none => []

def rows : RegistrationMethod → RegistrationRows
  | of (.findByTelegramProfile profile) => .telegramProfile profile
  | of (.importMissing registrations) => .items (registrations.map Registration.key)
  | of (.listForEvent e) | of (.enlist e _) | of (.updateAnswer e _ _ _) | of (.siftWaitingToEnd e)
  | of (.deleteForEvent e) => .event e
  | listPageForEvent e _ => .event e
  | of (.confirm e _ key _ replacedEventId replacedParticipantKey) =>
    .items <| (e, key) :: match replacedEventId, replacedParticipantKey with
      | some replacedEvent, some replacedKey => [(replacedEvent, replacedKey)]
      | _, _ => []
  | of (.confirmLinked e _ keys _ replacedEventId replacedParticipantKeys) =>
    linkedItems e keys replacedEventId replacedParticipantKeys
  | of (.updateLinkedCharacterWish e _ keys _) | of (.updateLinkedCoPlayerWish e _ keys _)
  | of (.cancelLinked e _ keys) => linkedItems e keys none []
  | of (.swapQueuePositions e a) =>
    .items [(e, a.promotedParticipantKey), (e, a.demotedParticipantKey)]
  | removeMany e keys => .items (keys.map (e, ·))
  | of (.get e key) | of (.updateProfile e _ key _) | of (.updateCharacterWish e _ key _)
  | of (.updateCoPlayerWish e _ key _) | of (.cancel e _ key) | of (.remove e key) =>
    .items [(e, key)]
  | participationNotificationDelivered e key _ | markParticipationNotificationDelivered e key _ =>
    .items [(e, key)]

/-- The method of the memory repository, with what it raises. -/
def run (now : Time) (memory : RegistrationMemory) :
    (m : RegistrationMethod) → Except Fault (m.Ans × RegistrationMemory)
  | of c => (c.performWithin now memory.rows).map fun (answer, rows) =>
    (answer, { memory with rows := rows })
  | listPageForEvent e page => (memory.rows.listPageForEvent e page).map (·, memory)
  | participationNotificationDelivered e key request =>
    .ok (decide (((e, key), request) ∈ memory.deliveries), memory)
  | markParticipationNotificationDelivered e key request =>
    .ok ((), { memory with deliveries := insert ((e, key), request) memory.deliveries })
  | removeMany e keys => .ok ((), { memory with rows := memory.rows.removeMany e keys })

/-- The rows with a Telegram profile are looked up in an index. -/
abbrev RegistrationRequests : Signature :=
  requests RegistrationDocument RegistrationKey EventId String

/-- `_registration_rows_for_call`. -/
def rowsForCall (m : RegistrationMethod) :
    Prog RegistrationRequests Fault (List (Item RegistrationDocument)) :=
  match m.rows with
  | .telegramProfile profile => Prog.ofCall (S := RegistrationRequests) (.search profile)
  | .event eventId => Prog.ofCall (S := RegistrationRequests) (.query eventId)
  | .items keys => do
    let found ← Prog.traverse (fun k => Prog.ofCall (S := RegistrationRequests) (.getItem k)) keys
    return found.filterMap id

end RegistrationMethod

/-- `DynamoRegistrationRepository`. -/
abbrev dynamoRegistrations :
    DynamoRepository RegistrationDocument RegistrationKey EventId String where
  key := RegistrationDocument.key
  partition := fun k => some k.1
  Method := RegistrationMethod
  Ans := RegistrationMethod.Ans
  Memory := RegistrationMemory
  rowsForCall := RegistrationMethod.rowsForCall
  records := fun _ => true
  load := fun original => RegistrationItems.load original
  run := fun m now memory => m.run now memory
  desired := fun _ _ memory => RegistrationItems.desired memory
  extraActions := fun _ _ => []

end LarpBot
