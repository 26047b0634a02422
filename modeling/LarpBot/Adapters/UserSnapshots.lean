import LarpBot.Adapters.DynamoUsers
import LarpBot.Application.RegistrationServices

/-!
# The snapshot of a batch

`DynamoUserRepository` reuses one scan of both tables while a batch is under way
(`bulk_read_snapshot`). The first bulk read scans under a lock and keeps the rows, the later ones
take them from there. A call that writes throws the rows away before it loads anything.

The coroutines of one process share the repository object. They give way to each other where they
wait: at the lock, for a page of a scan, for an item, for a transaction. Each lane runs one coroutine
after another. A statement of the source is a call here, so the lanes may interleave between any two
of them.
-/

namespace LarpBot

open Atomic

/-- The rows of the Telegram and of the VK table. -/
abbrev SnapshotRows := List (Item User) × List (Item User)

/-- How far a scan has come: it goes on after a place in the order of the scan. -/
inductive Cursor
  | after (place : Option Nat)
  | done

/-- A page of the scan of the users of a platform. -/
structure Page where
  platform : Platform
  items : List (Item User)
  /-- The place of `LastEvaluatedKey`. -/
  last : Option Nat

def Page.cursor (page : Page) : Cursor :=
  match page.last with
  | some place => .after (some place)
  | none => .done

/-- What `async with self._bulk_snapshot_lock` finds. -/
inductive Acquired
  | waits
  /-- The rows are there: the lock is taken and given back at once. -/
  | cached (rows : SnapshotRows)
  | scans

inductive SnapshotCall
  | request (c : Request User BotIdentity Empty UserSearch)
  | enter
  | exit
  | inSnapshot
  | invalidate
  | acquire (holder : Nat)
  /-- The next page of the scans that are not done. -/
  | page (telegram vk : Cursor)
  | keep (rows : SnapshotRows)
  | release

@[reducible] def SnapshotCall.Ans : SnapshotCall → Type
  | request c => c.Ans
  | inSnapshot => Bool
  | acquire _ => Acquired
  | page _ _ => Option Page
  | enter | exit | invalidate | keep _ | release => Unit

abbrev snapshotCalls : Signature :=
  ⟨SnapshotCall, SnapshotCall.Ans⟩

/-! ## The repository object and its tables -/

/-- The tables, the fields of the repository object, and what the tables have held: `since` the last
write of this process, `older` before it, each with the latest contents first. No code reads these
two. -/
structure UserTables where
  items : UserItems
  depth : Nat := 0
  rows : Option SnapshotRows := none
  holder : Option Nat := none
  since : List UserItems
  older : List UserItems := []

namespace UserTables

/-- Tables that nobody has written yet. -/
def fresh (items : UserItems) : UserTables where
  items := items
  since := [items]

/-- A transaction of this process is taken. -/
def committed (w : UserTables) (items : UserItems) : UserTables :=
  { w with items := items, since := [items], older := w.since ++ w.older }

/-- Another process writes. -/
def wrote (w : UserTables) (items : UserItems) : UserTables :=
  { w with items := items, since := items :: w.since }

/-- All that the tables have held, the latest contents first. -/
def contents (w : UserTables) : List UserItems :=
  w.since ++ w.older

/-- A page after a place, up to another one or to the end. -/
def page (w : UserTables) (place : BotIdentity → Nat) (platform : Platform)
    (after upTo : Option Nat) : Page :=
  let last := upTo.map (max (after.getD 0))
  { platform := platform
    items := (w.items.filter fun item =>
      let identity := item.document.identity
      identity.platform = platform && after.all (· < place identity) &&
        last.all (place identity ≤ ·)).rows
    last := last }

end UserTables

/-- What the service decides: at a request, and which of two scans gets a page first, how far it goes
and whether it fails. -/
structure SnapshotInput where
  service : Occasion User UserSearch := { found := fun _ => [] }
  vkFirst : Bool := false
  upTo : Option Nat := none
  fails : Bool := false

/-- The scan that gets the next page, and where it goes on. -/
def nextScan (vkFirst : Bool) : Cursor → Cursor → Option (Platform × Option Nat)
  | .after telegram, .after vk => some (if vkFirst then (.vk, vk) else (.telegram, telegram))
  | .after telegram, .done => some (.telegram, telegram)
  | .done, .after vk => some (.vk, vk)
  | .done, .done => none

/-- What a call does; `place` is the order in which the service scans. -/
def SnapshotCall.perform (place : BotIdentity → Nat) (c : SnapshotCall) (i : SnapshotInput)
    (w : UserTables) : c.Ans × UserTables :=
  match c with
  | request (.transactWriteItems actions) =>
    match dynamoUsers.perform (.transactWriteItems actions) i.service w.items with
    | (.committed, items) => (.committed, w.committed items)
    | (outcome, _) => (outcome, w)
  | request c => ((dynamoUsers.perform c i.service w.items).1, w)
  | enter => ((), { w with depth := w.depth + 1 })
  | exit =>
    ((), { w with depth := w.depth - 1, rows := if w.depth - 1 = 0 then none else w.rows })
  | inSnapshot => (decide (w.depth ≠ 0), w)
  | invalidate => ((), { w with rows := if w.depth ≠ 0 then none else w.rows })
  | acquire holder =>
    if w.holder.isSome then (.waits, w)
    else match w.rows with
      | some rows => (.cached rows, w)
      | none => (.scans, { w with holder := some holder })
  | page telegram vk =>
    match nextScan i.vkFirst telegram vk with
    | some (platform, after) =>
      (if i.fails then none else some (w.page place platform after i.upTo), w)
    | none => (none, w)
  | keep rows => ((), { w with rows := some rows, holder := none })
  | release => ((), { w with holder := none })

@[reducible] def userTables (place : BotIdentity → Nat) :
    Handler snapshotCalls UserTables SnapshotInput :=
  SnapshotCall.perform place

/-! ## The methods -/

namespace UserMethod

/-- `_BULK_SNAPSHOT_METHODS`. -/
def isBulk : UserMethod → Bool
  | of (.findLinked _) | of .listAll | of .listPassPreferences => true
  | _ => false

/-- `_MUTATING_METHODS`. -/
def isMutating : UserMethod → Bool
  | of (.get _ _) | of (.findLinked _) | of (.findTelegramByHandle _) | of .listAll
  | of .listPassPreferences => false
  | _ => true

end UserMethod

abbrev Coroutine (α : Type) := Prog snapshotCalls Fault α

def snapshotCall (c : SnapshotCall) : Coroutine c.Ans :=
  Prog.ofCall (S := snapshotCalls) c

section Methods

-- `budget` is how often a coroutine looks at the lock, and how many pages it reads, before its
-- process gives it up; `self` is the lane that it runs in
variable (budget self : Nat)

/-- The lock, once it is free: the rows that are kept, or none. -/
def acquired : Nat → Coroutine (Option SnapshotRows)
  | 0 => throw .deadline
  | budget + 1 => do
    match ← snapshotCall (.acquire self) with
    | .waits => acquired budget
    | .cached rows => return some rows
    | .scans => return none

/-- `asyncio.gather` of both scans. -/
def scans : Nat → Cursor → Cursor → SnapshotRows → Coroutine SnapshotRows
  | _, .done, .done, rows => return rows
  | 0, _, _, _ => throw .deadline
  | budget + 1, telegram, vk, rows => do
    match ← snapshotCall (.page telegram vk) with
    | none => throw DynamoRepository.clientError
    | some page =>
      match page.platform with
      | .telegram => scans budget page.cursor vk (rows.1 ++ page.items, rows.2)
      | _ => scans budget telegram page.cursor (rows.1, rows.2 ++ page.items)

/-- `_bulk_rows`. -/
def bulkRows : Coroutine SnapshotRows := do
  match ← acquired self budget with
  | some rows => return rows
  | none =>
    let rows ← (scans budget (.after none) (.after none) ([], [])).catching fun fault => do
      snapshotCall .release
      throw fault
    snapshotCall (.keep rows)
    return rows

/-- `_rows_for_call`. -/
def snapshotRowsForCall (m : UserMethod) : Coroutine (List (Item User)) := do
  let inside ← snapshotCall .inSnapshot
  if inside && m.isBulk then do
    let rows ← bulkRows budget self
    return rows.1 ++ rows.2
  else m.rowsForCall.embed fun c => snapshotCall (.request c)

/-- `_DynamoMemoryRepository._execute` with some attempts left. -/
def snapshotExecute (m : UserMethod) : Nat → Coroutine m.Ans
  | 0 => throw .assertionError
  | attempts + 1 => do
    let rows ← snapshotRowsForCall budget self m
    let now ← snapshotCall (.request .now)
    match dynamoUsers.worksOut m now rows with
    | .error fault => throw fault
    | .ok (answer, actions) =>
      if actions.isEmpty then return answer
      else if maxTransactionActions < actions.length then
        throw (DynamoRepository.tooManyActions actions.length)
      else match ← snapshotCall (.request (.transactWriteItems actions)) with
        | .committed => return answer
        | .cancelled =>
          if attempts = 0 then throw DynamoRepository.clientError else snapshotExecute m attempts
        | .failed => throw DynamoRepository.clientError

/-- `DynamoUserRepository._execute`. -/
def invoke (m : UserMethod) : Coroutine m.Ans :=
  if m.isMutating then do
    snapshotCall .invalidate
    snapshotExecute budget self m 4
  else snapshotExecute budget self m 4

end Methods

/-- A coroutine of the process: a call of the repository, or a batch, which opens the snapshot and
closes it again. The other lanes make the calls of the batch. -/
inductive UserTask
  | call (lane : Nat) (m : UserMethod)
  | batch (lane : Nat)

def userTasks (budget : Nat) :
    Jobs snapshotCalls Fault (Option (Σ m : UserMethod, m.Ans)) UserTask Nat where
  group
    | .call lane _ => lane
    | .batch lane => lane
  program
    | .call lane m => do
      let answer ← invoke budget lane m
      return some ⟨m, answer⟩
    | .batch _ => do
      snapshotCall .enter
      snapshotCall .exit
      return none

end LarpBot
