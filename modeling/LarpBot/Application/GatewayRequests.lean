import LarpBot.Adapters.YdbUsers
import LarpBot.Application.ConversationSupport

/-!
# Gateway requests

What `BotEngine.handle` does with the row of its user. The row is read once; every model that the
request saves is the one that was read, with other dialog fields. The roles and the marker of the
last delivery are for others to write: `set_privileged_role`, `clear_privileged_role` and
`claim_delivery` are calls of their own, made by other requests and by the worker.

What else a request calls before its saves is a job of its own here, as others may make the same
calls at any point.
-/

namespace LarpBot

open Atomic

/-- The model of the same user, with the role and the delivery marker that were read. -/
structure User.DialogOf (user saved : User) : Prop where
  identity : saved.identity = user.identity
  privilegedRole : saved.base.privilegedRole = user.base.privilegedRole
  isGamemaster : saved.base.isGamemaster = user.base.isGamemaster
  gamemasterGrantOperationId :
    saved.base.gamemasterGrantOperationId = user.base.gamemasterGrantOperationId
  lastDeliveryOperationId : saved.base.lastDeliveryOperationId = user.base.lastDeliveryOperationId

/-- A message of a user. Of a message that the row names already nothing is saved. -/
structure GatewayRequest where
  platform : Platform
  userId : Nat
  /-- The models that are saved one after another. -/
  saves : User → List User
  dialog : ∀ user, ∀ saved ∈ saves user, user.DialogOf saved

/-- `await self.users.get(platform, uid) or new_user(platform, uid)`, of what was stored. -/
def GatewayRequest.opened (request : GatewayRequest) : Option User → Except Fault User
  | some user => .ok user
  | none => User.new request.platform request.userId

def UserMethod.IsSave : UserMethod → Prop
  | of (.save _) => True
  | _ => False

/-- What is at work on the rows of the users. A model is saved by its request only. -/
inductive UserJob
  | execution (number : Nat) (method : UserMethod) (noSave : ¬ method.IsSave)
  | gateway (number : Nat) (request : GatewayRequest)

namespace UserJob

def number : UserJob → Nat
  | execution number _ _ => number
  | gateway number _ => number

/-- The repository is the one that `call` calls. -/
def program {S : Signature} (call : (m : UserMethod) → Prog S Fault m.Ans) :
    UserJob → Prog S Fault Unit
  | execution _ method _ => do
    let _ ← call method
    return
  | gateway _ request => do
    let stored ← call (.of (.get request.platform request.userId))
    match request.opened stored with
    | .error fault => throw fault
    | .ok user => Prog.forEach (fun saved => call (.of (.save saved))) (request.saves user)

end UserJob

/-- Any number of jobs at once, each in a lane of its own number. A request that dies makes no
further call, and one that is sent again is another job. -/
def userJobs {S : Signature} (call : (m : UserMethod) → Prog S Fault m.Ans) :
    Jobs S Fault Unit UserJob Nat where
  program := UserJob.program call
  group := UserJob.number

/-- A method of `DynamoUserRepository`. -/
def dynamoCall (m : UserMethod) : Prog UserMethod.UserRequests Fault m.Ans :=
  dynamoUsers.execute m 4

end LarpBot
