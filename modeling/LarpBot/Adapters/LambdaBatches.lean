import LarpBot.Adapters.QueueMessages
import LarpBot.Application.OrderedWorker

/-!
# Batches of the AWS queue

AWS calls the worker with one batch. `LambdaBatchConsumer` hands it out once and remembers which messages
were deleted; the response of the call names the others, and the queue delivers those again.
-/

namespace LarpBot

/-- `AWS_ORDERED_MESSAGE_GROUP`. -/
def awsOrderedMessageGroup : String := "ordered"

/-- A record of the batch, with its body as the JSON value that it holds. -/
structure SqsRecord where
  messageId : String
  body : ContextValue
  messageGroupId : String

inductive BatchError
  | valueError (text : String)
  -- the body is no command
  | validationError
deriving DecidableEq

structure LambdaBatchConsumer where
  envelopes : List QueueEnvelope := []
  messageIds : List String := []
  delivered : Bool := false
  completed : List String := []
deriving DecidableEq

namespace LambdaBatchConsumer

section Reset

variable (casefold : String → String) (now : Moment)

def envelope (record : SqsRecord) : Except BatchError QueueEnvelope :=
  if record.messageId = "" then
    .error (.valueError "SQS record is missing its message ID or body")
  else match OrderedRegistrationCommand.read casefold now record.body with
    | none => .error .validationError
    | some (command, _) =>
      if record.messageGroupId ∉ [awsOrderedMessageGroup, command.queueGroupId] then
        .error (.valueError "SQS message group does not match the ordered command")
      else
        .ok { command := command, receiptHandle := record.messageId }

def reset (records : List SqsRecord) : Except BatchError LambdaBatchConsumer := do
  let envelopes ← records.mapM (envelope casefold now)
  return { envelopes := envelopes, messageIds := records.map SqsRecord.messageId }

end Reset

def receive (consumer : LambdaBatchConsumer) : List QueueEnvelope × LambdaBatchConsumer :=
  if consumer.delivered then ([], consumer)
  else (consumer.envelopes, { consumer with delivered := true })

def delete (receiptHandle : String) (consumer : LambdaBatchConsumer) : Except BatchError LambdaBatchConsumer :=
  if receiptHandle ∉ consumer.messageIds then
    .error (.valueError "worker completed an unknown SQS message")
  else
    .ok { consumer with completed := consumer.completed.insert receiptHandle }

def release (receiptHandle : String) (consumer : LambdaBatchConsumer) : Except BatchError LambdaBatchConsumer :=
  if receiptHandle ∉ consumer.messageIds then
    .error (.valueError "worker released an unknown SQS message")
  else
    .ok consumer

/-- The identifiers of `batchItemFailures`. -/
def batchResponse (consumer : LambdaBatchConsumer) : List String :=
  consumer.messageIds.filter fun messageId => messageId ∉ consumer.completed

/-- The passes of a run that the consumer serves. Its methods do not wait, so that the deadline comes in a
command or between two passes. -/
def Serves : LambdaBatchConsumer → List Round → Prop
  | _, [] => True
  | consumer, round :: rounds =>
    round.received = .envelopes consumer.receive.1 ∧
      (∀ script ∈ round.scripts, script.deletion = .answered) ∧ consumer.receive.2.Serves rounds

/-- The deletions of a run, in their order, and then its releases. -/
def afterRun (consumer : LambdaBatchConsumer) (completed : List QueueEnvelope) (released : List String) :
    Except BatchError LambdaBatchConsumer := do
  let consumer ← completed.foldlM (fun consumer raw => consumer.delete raw.receiptHandle) consumer
  released.foldlM (fun consumer receipt => consumer.release receipt) consumer

end LambdaBatchConsumer

end LarpBot
