import LarpBot.Adapters.DynamoUsers

/-!
# The user repository on YDB

`YdbUserRepository`: every method that writes is one query, and a query is a transaction. A save
writes every column of a row but the three that hold the role.
-/

namespace LarpBot

open Atomic

/-- The row keeps the columns of the role that it had. -/
def UserBase.withRoleColumns (base stored : UserBase) : UserBase :=
  { base with
    isGamemaster := stored.isGamemaster
    privilegedRole := stored.privilegedRole
    gamemasterGrantOperationId := stored.gamemasterGrantOperationId }

namespace Users

variable (users : Users)

/-- `save`; in a new row the columns of the role are empty. -/
def upsert (user : User) : Users :=
  let stored := (users.find? user.identity).elim {} User.base
  users.insert (user.mapBase (·.withRoleColumns stored))

/-- `set_privileged_role`. -/
def updateRole (platform : Platform) (userId : Nat) (role : PrivilegedRole)
    (operationId : OperationId) : Users :=
  users.modify ⟨platform, userId⟩ (User.mapBase fun base =>
    if base.privilegedRole ≠ some role ∨ base.gamemasterGrantOperationId ≠ some operationId then
      base.granted role operationId
    else base) (User.identity_mapBase _)

/-- `clear_privileged_role`. -/
def updateNoRole (platform : Platform) (userId : Nat) (operationId : OperationId) : Users :=
  users.modify ⟨platform, userId⟩ (User.mapBase fun base =>
    if base.isGamemaster ∨ base.privilegedRole.isSome then base.revoked operationId else base)
    (User.identity_mapBase _)

end Users

/-- The queries are named after their methods. `find_linked` looks up a second row after the first,
and `list_pass_preferences` reads page after page; what a reading method shows is taken together. -/
abbrev ydbQueries : Signature :=
  ⟨UserMethod, UserMethod.Ans⟩

/-- What a query does. -/
def ydbUsers : Handler ydbQueries Users Time
  | .of (.save user), _, users => ((), users.upsert user)
  | .of c, now, users => c.perform now users
  | .setPrivilegedRole platform userId role operationId, _, users =>
    ((), users.updateRole platform userId role operationId)
  | .clearPrivilegedRole platform userId operationId, _, users =>
    ((), users.updateNoRole platform userId operationId)

/-- The platform that `_location` is asked for. -/
def UserMethod.platform : UserMethod → Option Platform
  | of (.get platform _) | of (.claimDelivery platform _ _ _) | of (.setLarpExperience platform _ _)
  | of (.grantLarpExperience platform _) | setPrivilegedRole platform _ _ _
  | clearPrivilegedRole platform _ _ => some platform
  | _ => none

/-- A method of `YdbUserRepository`. -/
def ydbCall (m : UserMethod) : Prog ydbQueries Fault m.Ans :=
  if m.platform = some .system then throw (.valueError "system has no user table")
  else Prog.ofCall (S := ydbQueries) m

end LarpBot
