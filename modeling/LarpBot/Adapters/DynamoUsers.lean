import LarpBot.Adapters.DynamoStore
import LarpBot.Application.Calls

/-!
# The user repository on DynamoDB

`DynamoUserRepository`: two tables, of Telegram users and of VK users, with the whole profile as the
payload of an item. Every method that writes loads one row and puts the whole profile back. The
scans and the indexes may show what they have shown before: a batch reuses one scan.
-/

namespace LarpBot

open Atomic

/-! ## The roles in the memory repository -/

/-- The role is set by an operation. -/
def UserBase.granted (base : UserBase) (role : PrivilegedRole) (operationId : OperationId) :
    UserBase :=
  { base with
    privilegedRole := some role
    isGamemaster := true
    gamemasterGrantOperationId := some operationId }

/-- The role is taken by an operation. -/
def UserBase.revoked (base : UserBase) (operationId : OperationId) : UserBase :=
  { base with
    privilegedRole := none
    isGamemaster := false
    gamemasterGrantOperationId := some operationId }

namespace Users

variable (users : Users)

def setPrivilegedRole (platform : Platform) (userId : Nat) (role : PrivilegedRole)
    (operationId : OperationId) : Except Fault Users :=
  match users.get platform userId with
  | none => .error .keyError
  | some user =>
    if user.base.effectivePrivilegedRole ≠ some role ∨
        user.base.gamemasterGrantOperationId ≠ some operationId then
      .ok <| users.modify ⟨platform, userId⟩ (User.mapBase (·.granted role operationId))
        (User.identity_mapBase _)
    else .ok users

def clearPrivilegedRole (platform : Platform) (userId : Nat) (operationId : OperationId) :
    Except Fault Users :=
  match users.get platform userId with
  | none => .error .keyError
  | some user =>
    if user.base.effectivePrivilegedRole ≠ none then
      .ok <| users.modify ⟨platform, userId⟩ (User.mapBase (·.revoked operationId))
        (User.identity_mapBase _)
    else .ok users

end Users

/-! ## The methods -/

abbrev UserItems := Store User.identity

/-- A scan of a table, or a query of an index of the Telegram users. -/
inductive UserSearch
  | telegramUsers
  | vkUsers
  | handle (handle : String)
  | telegramIdentity (handle : String) (linkedVkId : Nat)
deriving DecidableEq, Repr

/-- What `_rows_for_call` loads. -/
inductive UserRows
  | nothing
  | scans
  | search (condition : UserSearch)
  | owners (handle : String) (vkId : Nat)
  | item (identity : BotIdentity)

inductive UserMethod
  | of (c : UserCall)
  | setPrivilegedRole (platform : Platform) (userId : Nat) (role : PrivilegedRole)
      (operationId : OperationId)
  | clearPrivilegedRole (platform : Platform) (userId : Nat) (operationId : OperationId)

/-- The item that `add_user` reads: every platform but Telegram has its rows among the VK users. -/
def storedIdentity (platform : Platform) (userId : Nat) : BotIdentity :=
  ⟨if platform = .telegram then .telegram else .vk, userId⟩

namespace UserMethod

@[reducible] def Ans : UserMethod → Type
  | of c => c.Ans
  | setPrivilegedRole _ _ _ _ | clearPrivilegedRole _ _ _ => Unit

def rows : UserMethod → UserRows
  | of .listAll | of .listPassPreferences => .scans
  | of (.findTelegramByHandle handle) => .search (.handle handle)
  | of (.findLinked (.telegram user)) => match user.telegramHandle, user.linkedVkId with
    | some handle, some vkId => .owners handle vkId
    | _, _ => .nothing
  | of (.findLinked (.vk user)) => match user.telegramHandle with
    | some handle => .search (.telegramIdentity handle user.vkId)
    | none => .nothing
  | of (.save user) => .item user.identity
  | of (.updateTelegramHandle userId _) | of (.updateTelegramLink userId _ _) =>
    .item ⟨.telegram, userId⟩
  | of (.get platform userId) | of (.claimDelivery platform userId _ _)
  | of (.setLarpExperience platform userId _) | of (.grantLarpExperience platform userId)
  | setPrivilegedRole platform userId _ _ | clearPrivilegedRole platform userId _ =>
    .item (storedIdentity platform userId)

/-- The method of the memory repository, with what it raises. -/
def run (now : Time) (memory : Users) : (m : UserMethod) → Except Fault (m.Ans × Users)
  | of c => .ok (c.perform now memory)
  | setPrivilegedRole platform userId role operationId =>
    (memory.setPrivilegedRole platform userId role operationId).map ((), ·)
  | clearPrivilegedRole platform userId operationId =>
    (memory.clearPrivilegedRole platform userId operationId).map ((), ·)

abbrev UserRequests : Signature :=
  requests User BotIdentity Empty UserSearch

/-- `_rows_for_call`. -/
def rowsForCall (m : UserMethod) : Prog UserRequests Fault (List (Item User)) :=
  match m.rows with
  | .nothing => return []
  | .scans => do
    let telegram ← Prog.ofCall (S := UserRequests) (.search .telegramUsers)
    let vk ← Prog.ofCall (S := UserRequests) (.search .vkUsers)
    return telegram ++ vk
  | .search condition => Prog.ofCall (S := UserRequests) (.search condition)
  | .owners handle vkId => do
    let owners ← Prog.ofCall (S := UserRequests) (.search (.telegramIdentity handle vkId))
    let linked ← Prog.ofCall (S := UserRequests) (.getItem ⟨.vk, vkId⟩)
    return owners ++ linked.toList
  | .item identity => do
    let found ← Prog.ofCall (S := UserRequests) (.getItem identity)
    return found.toList

end UserMethod

/-- `DynamoUserRepository`. -/
abbrev dynamoUsers : DynamoRepository User BotIdentity Empty UserSearch where
  key := User.identity
  partition := fun _ => none
  Method := UserMethod
  Ans := UserMethod.Ans
  Memory := Users
  rowsForCall := UserMethod.rowsForCall
  records := fun _ => true
  load := fun original => .ofList (original.rows.map Item.document)
  run := fun m now memory => m.run now memory
  desired := fun _ _ memory => memory
  extraActions := fun _ _ => []

end LarpBot
