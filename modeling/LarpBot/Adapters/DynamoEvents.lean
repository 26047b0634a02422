import LarpBot.Adapters.DynamoStore
import LarpBot.Application.Calls

/-!
# The event repository on DynamoDB

`DynamoEventRepository`: the events and the locks of their unique values in one table, the leaders of
each event in another. A method that names an event reads its item, and, if it is about leaders,
queries the leaders of the event in a second request. An event id is a UUID, so it is never the key of
a lock.
-/

namespace LarpBot

open Atomic

/-! ## The memory repository with its leaders -/

/-- `MemoryEventRepository`: the events and the leader sets. -/
structure EventMemory where
  rows : Events
  leaders : Leaders

namespace EventMemory

variable (memory : EventMemory)

def create (event : Event) (leaders : List BotIdentity) : Except Fault EventMemory :=
  if (memory.rows.get event.eventId).isSome then .error (.valueError "event exists")
  else .ok {
    rows := memory.rows.insertNew event
    leaders := leaders.foldl (fun stored leader => stored.insertNew (event.eventId, leader))
      (memory.leaders.ofEventRemoved event.eventId) }

def addLeader (eventId : EventId) (leader : BotIdentity) : Bool × EventMemory :=
  if (memory.rows.get eventId).isNone then (false, memory)
  else if (eventId, leader) ∈ memory.leaders.rows then (false, memory)
  else (true, { memory with leaders := memory.leaders.insertNew (eventId, leader) })

def removeLeader (eventId : EventId) (leader : BotIdentity) : Bool × EventMemory :=
  if (eventId, leader) ∈ memory.leaders.rows then
    (true, { memory with leaders := memory.leaders.erase (eventId, leader) })
  else (false, memory)

/-- `_DynamoMemoryEventRepository.set_status`: opening the registration by hand lifts a time gate. -/
def setStatus (now : Time) (eventId : EventId) (status : EventStatus) : Bool × EventMemory :=
  let overrides := status = .created &&
    (memory.rows.get eventId).any fun event => event.registrationOpenAt.any (now < ·)
  let (changed, rows) := memory.rows.setStatus now eventId status
  if overrides then (true, { memory with rows := (Events.setRegistrationOpenAt rows now eventId none).2 })
  else (changed, { memory with rows := rows })

end EventMemory

/-- What a call has raised. -/
def EventCall.raised : (c : EventCall) → c.Ans → Option Fault
  | getBySignupToken _, answer => failure answer
  | listPage _ _ _, answer => failure answer
  | setRegistrationQuestion _ _, answer | markRegistrationsMigrated _ _, answer
  | setReservePromotion _ _ _, answer | markReservePromotionDelivered _ _, answer
  | setConfirmedLinkPromotion _ _ _, answer | markConfirmedLinkPromotionDelivered _ _, answer
  | setParticipantRemoval _ _ _, answer | addParticipantRemovalKeys _ _ _, answer
  | markParticipantRemovalDelivered _ _ _, answer
  | markScheduledCloseNotificationDelivered _ _ _, answer
  | completeScheduledCloseNotifications _ _, answer => failure answer
  | _, _ => none
where
  failure {α : Type} : Except Fault α → Option Fault
    | .error fault => some fault
    | .ok _ => none

/-! ## Items -/

inductive LockKind
  | signup
  | telegramChat
deriving DecidableEq, Repr

inductive EventKey
  | event (eventId : EventId)
  | lock (kind : LockKind) (value : String)
  | leader (eventId : EventId) (identity : BotIdentity)
deriving DecidableEq, Repr

namespace EventKey

def asEvent : EventKey → Option EventId
  | event eventId => some eventId
  | _ => none

def asLeader : EventKey → Option (EventId × BotIdentity)
  | leader eventId identity => some (eventId, identity)
  | _ => none

end EventKey

inductive EventDocument
  | event (payload : Event)
  | lock (kind : LockKind) (value : String) (owner : EventId)
  | leader (eventId : EventId) (identity : BotIdentity) (createdAt : Time)
deriving DecidableEq

namespace EventDocument

def key : EventDocument → EventKey
  | event payload => .event payload.eventId
  | lock kind value _ => .lock kind value
  | leader eventId identity _ => .leader eventId identity

def asEvent : EventDocument → Option Event
  | event payload => some payload
  | _ => none

def asLeader : EventDocument → Option (EventId × BotIdentity)
  | leader eventId identity _ => some (eventId, identity)
  | _ => none

theorem asEvent_eq_some {document : EventDocument} {payload : Event} :
    document.asEvent = some payload ↔ document = event payload := by
  cases document <;> simp [asEvent]

theorem asLeader_eq_some {document : EventDocument} {entry : EventId × BotIdentity} :
    document.asLeader = some entry ↔ ∃ createdAt, document = leader entry.1 entry.2 createdAt := by
  cases document <;> simp [asLeader, Prod.ext_iff]

/-- `_unique_values`. -/
def uniqueValues : EventDocument → List (LockKind × String)
  | event payload =>
    (payload.signupToken.map (LockKind.signup, ·)).toList ++
      (payload.telegramChatId.map fun chatId => (LockKind.telegramChat, toString chatId)).toList
  | _ => []

end EventDocument

/-- The leaders of one event are one partition. -/
def EventKey.partition : EventKey → Option EventId
  | leader eventId _ => some eventId
  | _ => none

abbrev EventItems := Store EventDocument.key

namespace EventItems

/-- The items that `_load` has parsed, as a memory repository. -/
def load (original : EventItems) : EventMemory where
  rows := .ofList (original.rows.filterMap (·.document.asEvent))
  leaders := .ofList (original.rows.filterMap (·.document.asLeader))

/-- `leader_created_at`, or the instant at which the item of a new leader is built. -/
def createdAt (original : EventItems) (now : Time) (entry : EventId × BotIdentity) : Time :=
  match original.find? (.leader entry.1 entry.2) with
  | some ⟨_, .leader _ _ createdAt⟩ => createdAt
  | _ => now

/-- `_desired`: the leaders of an event that is not there are dropped. -/
def desired (now : Time) (original : EventItems) (memory : EventMemory) :
    Table EventDocument.key :=
  .ofList <| memory.rows.rows.map .event ++
    (memory.leaders.rows.filter fun entry => (memory.rows.get entry.1).isSome).map fun entry =>
      .leader entry.1 entry.2 (original.createdAt now entry)

def uniqueValues (document : Option EventDocument) : List (LockKind × String) :=
  (document.map EventDocument.uniqueValues).getD []

def lockAction (owner : EventId) (unique : LockKind × String) : Action EventDocument EventKey :=
  .put ⟨1, .lock unique.1 unique.2 owner⟩ .absent

def unlockAction (owner : EventId) (unique : LockKind × String) : Action EventDocument EventKey :=
  .delete (.lock unique.1 unique.2) (.document (.lock unique.1 unique.2 owner))

/-- The locks that one event gives up and takes. -/
def lockActions (original : EventItems) (desired : Table EventDocument.key) (eventId : EventId) :
    List (Action EventDocument EventKey) :=
  let previous := uniqueValues ((original.find? (.event eventId)).map Item.document)
  let current := uniqueValues (desired.find? (.event eventId))
  (previous.filter (· ∉ current)).map (unlockAction eventId) ++
    (current.filter (· ∉ previous)).map (lockAction eventId)

def eventIds (documents : List EventDocument) : List EventId :=
  documents.filterMap fun
    | .event payload => some payload.eventId
    | _ => none

/-- `_extra_actions`. -/
def extraActions (original : EventItems) (desired : Table EventDocument.key) :
    List (Action EventDocument EventKey) :=
  (eventIds (original.rows.map Item.document ++ desired.rows)).eraseDups.flatMap
    (lockActions original desired)

/-! ### What is loaded and what is wanted -/

variable {original : EventItems} {memory : EventMemory} {now : Time} {eventId : EventId}
  {identity : BotIdentity} {payload : Event}

theorem mem_load_rows : payload ∈ (load original).rows.rows ↔
    ∃ item ∈ original.rows, item.document = .event payload := by
  have hnodup : ((original.rows.filterMap (·.document.asEvent)).map Event.eventId).Nodup := by
    refine original.nodup_filterMap _ EventKey.asEvent ?_ ?_
    · intro k k' b hk hk'
      cases k <;> cases k' <;> simp_all [EventKey.asEvent]
    · rintro ⟨revision, document⟩
      cases document <;> rfl
  rw [load, Table.mem_ofList hnodup, List.mem_filterMap]
  simp only [EventDocument.asEvent_eq_some]

theorem mem_load_leaders {entry : EventId × BotIdentity} : entry ∈ (load original).leaders.rows ↔
    ∃ item ∈ original.rows, ∃ createdAt, item.document = .leader entry.1 entry.2 createdAt := by
  have hnodup : ((original.rows.filterMap (·.document.asLeader)).map id).Nodup := by
    refine original.nodup_filterMap _ EventKey.asLeader ?_ ?_
    · intro k k' b hk hk'
      cases k <;> cases k' <;> simp_all [EventKey.asLeader]
      rw [Prod.ext_iff] at hk hk'
      exact ⟨hk.1.trans hk'.1.symm, hk.2.trans hk'.2.symm⟩
    · rintro ⟨revision, document⟩
      cases document <;> rfl
  rw [load, Table.mem_ofList hnodup, List.mem_filterMap]
  simp only [EventDocument.asLeader_eq_some]

theorem mem_desired {document : EventDocument} :
    document ∈ (desired now original memory).rows ↔
      (∃ event ∈ memory.rows.rows, document = .event event) ∨
      ∃ entry ∈ memory.leaders.rows, (memory.rows.get entry.1).isSome ∧
        document = .leader entry.1 entry.2 (original.createdAt now entry) := by
  have hevents : (memory.rows.rows.map EventDocument.event).map EventDocument.key =
      (memory.rows.rows.map Event.eventId).map .event := by
    simp [List.map_map, Function.comp_def, EventDocument.key]
  have hleaders (kept : List (EventId × BotIdentity)) :
      (kept.map fun entry => EventDocument.leader entry.1 entry.2
        (original.createdAt now entry)).map EventDocument.key =
          kept.map fun entry => .leader entry.1 entry.2 := by
    simp [List.map_map, Function.comp_def, EventDocument.key]
  have hnodup : ((memory.rows.rows.map EventDocument.event ++
      (memory.leaders.rows.filter fun entry => (memory.rows.get entry.1).isSome).map fun entry =>
        EventDocument.leader entry.1 entry.2 (original.createdAt now entry)).map
          EventDocument.key).Nodup := by
    rw [List.map_append, hevents, hleaders, List.nodup_append]
    refine ⟨?_, ?_, ?_⟩
    · exact memory.rows.nodup.map fun _ _ h => EventKey.event.inj h
    · refine (memory.leaders.rows_nodup.filter _).map fun entry entry' h => ?_
      obtain ⟨hevent, hidentity⟩ := EventKey.leader.inj h
      exact Prod.ext hevent hidentity
    · rintro k hk k' hk' rfl
      obtain ⟨_, _, rfl⟩ := List.mem_map.mp hk
      obtain ⟨_, _, hsame⟩ := List.mem_map.mp hk'
      exact nomatch hsame
  rw [desired, Table.mem_ofList hnodup]
  simp only [List.mem_append, List.mem_map, List.mem_filter, eq_comm (b := document), and_assoc]

theorem find?_desired_event : (desired now original memory).find? (.event eventId) =
    (memory.rows.get eventId).map .event := by
  cases hfound : memory.rows.get eventId with
  | none =>
    rw [Option.map_none]
    refine Option.eq_none_iff_forall_ne_some.mpr fun document hdocument => ?_
    obtain ⟨hmem, hkey⟩ := Table.find?_eq_some_iff.mp hdocument
    rcases mem_desired.mp hmem with ⟨event, hevent, rfl⟩ | ⟨entry, _, _, rfl⟩
    · rw [Events.get, ← EventKey.event.inj hkey, Table.find?_key hevent] at hfound
      cases hfound
    · cases hkey
  | some event =>
    obtain rfl := Events.eventId_of_get hfound
    rw [Option.map_some]
    exact Table.find?_key (mem_desired.mpr (.inl ⟨event, Table.mem_of_find? hfound, rfl⟩))

theorem find?_desired_leader : (desired now original memory).find? (.leader eventId identity) =
    if (eventId, identity) ∈ memory.leaders.rows ∧ (memory.rows.get eventId).isSome then
      some (.leader eventId identity (original.createdAt now (eventId, identity)))
    else none := by
  split
  · next h => exact Table.find?_key (mem_desired.mpr (.inr ⟨(eventId, identity), h.1, h.2, rfl⟩))
  · next h =>
    refine Option.eq_none_iff_forall_ne_some.mpr fun document hdocument => h ?_
    obtain ⟨hmem, hkey⟩ := Table.find?_eq_some_iff.mp hdocument
    rcases mem_desired.mp hmem with ⟨event, _, rfl⟩ | ⟨entry, hentry, hevent, rfl⟩
    · cases hkey
    · obtain ⟨rfl, rfl⟩ := EventKey.leader.inj hkey
      exact ⟨hentry, hevent⟩

theorem find?_desired_lock {kind : LockKind} {value : String} :
    (desired now original memory).find? (.lock kind value) = none := by
  refine Option.eq_none_iff_forall_ne_some.mpr fun document hdocument => ?_
  obtain ⟨hmem, hkey⟩ := Table.find?_eq_some_iff.mp hdocument
  rcases mem_desired.mp hmem with ⟨event, _, rfl⟩ | ⟨entry, _, _, rfl⟩ <;> exact nomatch hkey

/-- An event that was loaded is the one that was read. -/
theorem get_load : (load original).rows.get eventId = some payload ↔
    ∃ item, original.find? (.event eventId) = some item ∧ item.document = .event payload := by
  rw [Events.get, Table.find?_eq_some_iff, mem_load_rows]
  constructor
  · rintro ⟨⟨item, hitem, hpayload⟩, rfl⟩
    have hkey : item.document.key = .event payload.eventId := by rw [hpayload]; rfl
    exact ⟨item, hkey ▸ Table.find?_key hitem, hpayload⟩
  · rintro ⟨item, hfound, hpayload⟩
    have hkey := Table.key_of_find? hfound
    refine ⟨⟨item, Table.mem_of_find? hfound, hpayload⟩, ?_⟩
    rw [hpayload] at hkey
    exact EventKey.event.inj hkey

/-- The item under the key of an event is an event, -/
theorem document_of_event {item : Item EventDocument}
    (h : original.find? (.event eventId) = some item) :
    ∃ payload, item.document = .event payload ∧ payload.eventId = eventId := by
  have hkey : item.document.key = .event eventId := Store.key_of_find? h
  cases hdocument : item.document with
  | event payload =>
    rw [hdocument] at hkey
    exact ⟨payload, rfl, EventKey.event.inj hkey⟩
  | lock | leader =>
    rw [hdocument] at hkey
    exact nomatch hkey

/-- and the one under the key of a leader is a leader. -/
theorem document_of_leader {item : Item EventDocument}
    (h : original.find? (.leader eventId identity) = some item) :
    ∃ createdAt, item.document = .leader eventId identity createdAt := by
  have hkey : item.document.key = .leader eventId identity := Store.key_of_find? h
  cases hdocument : item.document with
  | leader eventId' identity' createdAt =>
    rw [hdocument] at hkey
    obtain ⟨rfl, rfl⟩ := EventKey.leader.inj hkey
    exact ⟨createdAt, rfl⟩
  | lock | event =>
    rw [hdocument] at hkey
    exact nomatch hkey

theorem isSome_get_load : ((load original).rows.get eventId).isSome =
    (original.find? (.event eventId)).isSome := by
  rw [Bool.eq_iff_iff, Option.isSome_iff_exists, Option.isSome_iff_exists]
  constructor
  · rintro ⟨payload, hpayload⟩
    obtain ⟨item, hitem, -⟩ := get_load.mp hpayload
    exact ⟨item, hitem⟩
  · rintro ⟨item, hitem⟩
    obtain ⟨payload, hpayload, -⟩ := document_of_event hitem
    exact ⟨payload, get_load.mpr ⟨item, hitem, hpayload⟩⟩

theorem mem_load_leader : (eventId, identity) ∈ (load original).leaders.rows ↔
    (original.find? (.leader eventId identity)).isSome := by
  rw [mem_load_leaders, Option.isSome_iff_exists]
  constructor
  · rintro ⟨item, hitem, createdAt, hdocument⟩
    have hkey : item.document.key = .leader eventId identity := by rw [hdocument]; rfl
    exact ⟨item, hkey ▸ Table.find?_key hitem⟩
  · rintro ⟨item, hitem⟩
    obtain ⟨createdAt, hdocument⟩ := document_of_leader hitem
    exact ⟨item, Table.mem_of_find? hitem, createdAt, hdocument⟩

/-- The items are those of events and of leaders of events that are among them. -/
def Closed (original : EventItems) : Prop :=
  ∀ item ∈ original.rows, match item.document with
    | .event _ => True
    | .lock _ _ _ => False
    | .leader eventId _ _ => (original.find? (.event eventId)).isSome

/-- What was loaded is wanted as it was read, if no leader is without its event. -/
theorem find?_desired_load (h : Closed original) (k : EventKey) :
    (desired now original (load original)).find? k = (original.find? k).map Item.document := by
  cases k with
  | event eventId =>
    rw [find?_desired_event]
    cases hfound : original.find? (.event eventId) with
    | none =>
      have hnone : (load original).rows.get eventId = none := by
        rw [← Option.not_isSome_iff_eq_none, isSome_get_load, hfound]
        exact nofun
      rw [hnone]
      rfl
    | some item =>
      obtain ⟨payload, hpayload, -⟩ := document_of_event hfound
      rw [get_load.mpr ⟨item, hfound, hpayload⟩, Option.map_some, Option.map_some, hpayload]
  | lock kind value =>
    rw [find?_desired_lock]
    cases hfound : original.find? (.lock kind value) with
    | none => rfl
    | some item =>
      have hkey : item.document.key = .lock kind value := Store.key_of_find? hfound
      have hclosed := h item (Table.mem_of_find? hfound)
      cases hdocument : item.document with
      | lock => rw [hdocument] at hclosed; exact hclosed.elim
      | event | leader => rw [hdocument] at hkey; exact nomatch hkey
  | leader eventId identity =>
    simp only [find?_desired_leader, mem_load_leader, isSome_get_load]
    cases hfound : original.find? (.leader eventId identity) with
    | none => simp
    | some item =>
      obtain ⟨createdAt, hdocument⟩ := document_of_leader hfound
      have hclosed := h item (Table.mem_of_find? hfound)
      rw [hdocument] at hclosed
      have hstamp : original.createdAt now (eventId, identity) = createdAt := by
        obtain ⟨revision, document⟩ := item
        dsimp only at hdocument
        subst hdocument
        simp only [EventItems.createdAt, hfound]
      rw [if_pos ⟨rfl, hclosed⟩, hstamp, Option.map_some, hdocument]

/-- An event with the unique values it had needs no lock. -/
theorem lockActions_eq_nil {desired : Table EventDocument.key}
    (h : desired.find? (.event eventId) = (original.find? (.event eventId)).map Item.document) :
    lockActions original desired eventId = [] := by
  simp [lockActions, h]

end EventItems

/-! ## The methods -/

/-- A scan of the events, or a query of one of the indexes. -/
inductive EventSearch
  | events
  | signupToken (token : String)
  | telegramChat (chatId : Int)
deriving DecidableEq, Repr

/-- What `_event_rows_for_call` loads. -/
inductive EventRows
  | search (condition : EventSearch)
  | item (eventId : EventId) (withLeaders : Bool)

inductive EventMethod
  | of (c : EventCall)
  | getByTelegramChatId (chatId : Int)
  | listLeaders (eventId : EventId)
  | create (event : Event) (leaders : List BotIdentity)
  | addLeader (eventId : EventId) (leader : BotIdentity)
  | removeLeader (eventId : EventId) (leader : BotIdentity)

namespace EventMethod

@[reducible] def Ans : EventMethod → Type
  | of c => c.Ans
  | getByTelegramChatId _ => Option Event
  | listLeaders _ => List BotIdentity
  | create _ _ => Unit
  | addLeader _ _ | removeLeader _ _ => Bool

def rows : EventMethod → EventRows
  | of (.getBySignupToken token) => .search (.signupToken token)
  | of (.listPage _ _ _) => .search .events
  | of (.delete e) => .item e true
  | of (.get e) | of (.setStatus e _) | of (.openScheduledConfirmation e _ _)
  | of (.openConfirmation e _) | of (.setPlayerAmount e _) | of (.setRegistrationQuestion e _)
  | of (.setDetails e _ _) | of (.markRegistrationsMigrated e _) | of (.setPublicTable e _ _ _)
  | of (.setGoogleTableLinks e _ _) | of (.archive e _) | of (.unarchive e _)
  | of (.appendConfirmedNotification e _ _) | of (.setReservePromotion e _ _)
  | of (.markReservePromotionDelivered e _) | of (.setConfirmedLinkPromotion e _ _)
  | of (.markConfirmedLinkPromotionDelivered e _) | of (.setParticipantRemoval e _ _)
  | of (.addParticipantRemovalKeys e _ _) | of (.markParticipantRemovalDelivered e _ _)
  | of (.startScheduledClose e _) | of (.completeScheduledCloseActions e _)
  | of (.markScheduledCloseNotificationDelivered e _ _)
  | of (.completeScheduledCloseNotifications e _) | of (.setPassTable e _) => .item e false
  | getByTelegramChatId chatId => .search (.telegramChat chatId)
  | listLeaders e | addLeader e _ | removeLeader e _ => .item e true
  | create event _ => .item event.eventId false

/-- The method of the memory repository, with what it raises. -/
def run (now : Time) (memory : EventMemory) : (m : EventMethod) → Except Fault (m.Ans × EventMemory)
  | of (.setStatus e status) => .ok (memory.setStatus now e status)
  | of c =>
    let (answer, rows) := c.perform now memory.rows
    match c.raised answer with
    | some fault => .error fault
    | none => .ok (answer, ⟨rows, c.leadersAfter memory.leaders⟩)
  | getByTelegramChatId chatId =>
    match memory.rows.rows.filter fun event => event.telegramChatId = some chatId with
    | [] => .ok (none, memory)
    | [event] => .ok (some event, memory)
    | _ => .error (.runtimeError "duplicate Telegram chat binding")
  | listLeaders e => .ok (memory.leaders.listLeaders e, memory)
  | create event leaders => (memory.create event leaders).map ((), ·)
  | addLeader e leader => .ok (memory.addLeader e leader)
  | removeLeader e leader => .ok (memory.removeLeader e leader)

abbrev EventRequests : Signature :=
  requests EventDocument EventKey EventId EventSearch

/-- `_event_rows_for_call`. Of a scan, which shows the locks too, `_load` keeps the events. -/
def rowsForCall (m : EventMethod) : Prog EventRequests Fault (List (Item EventDocument)) :=
  match m.rows with
  | .search condition => do
    let found ← Prog.ofCall (S := EventRequests) (.search condition)
    return found.filter (·.document.asEvent.isSome)
  | .item eventId withLeaders => do
    let event ← Prog.ofCall (S := EventRequests) (.getItem (.event eventId))
    let leaders ← (
      if withLeaders then Prog.ofCall (S := EventRequests) (.query eventId) else pure [])
    return event.toList ++ leaders

end EventMethod

/-- `DynamoEventRepository`. -/
abbrev dynamoEvents : DynamoRepository EventDocument EventKey EventId EventSearch where
  key := EventDocument.key
  partition := EventKey.partition
  Method := EventMethod
  Ans := EventMethod.Ans
  Memory := EventMemory
  rowsForCall := EventMethod.rowsForCall
  records
    | .lock _ _ _ => false
    | _ => true
  load := fun original => EventItems.load original
  run := fun m now memory => m.run now memory
  desired := fun now original memory => EventItems.desired now original memory
  extraActions := fun original desired => EventItems.extraActions original desired

end LarpBot
