import LarpBot.Application.Worker
import LarpBot.Foundation.Ranking
import LarpBot.Foundation.Resumption

/-!
# A run of the ordered worker

`OrderedWorker.run` takes batches from the queue and attempts their commands one after another, until the
queue is empty or the time is up. A command that fails holds up its group for the rest of the run. The
deadline may cancel the run at any call, and in the end every message that was not deleted is released.

The loop is written over what an attempt works on (`WorkerPorts`): for the worker itself that is the world
(`workerPorts`).
-/

namespace LarpBot

open Atomic

structure QueueEnvelope where
  command : OrderedRegistrationCommand
  receiptHandle : String
deriving DecidableEq

def QueueEnvelope.groupId (raw : QueueEnvelope) : String := raw.command.queueGroupId

/-! ## What a run meets -/

/-- The answer of the queue to `delete`. A request without an answer may have been carried out. -/
inductive Deletion
  | answered
  | raised (failure : Failure) (effective : Bool)
  | cancelled (effective : Bool)

/-- What happens while a command is attempted, and to the deletion of its message. -/
structure Script where
  occurrences : List (Occurrence OrderedRegistrationCommand Input World) := []
  deletion : Deletion := .cancelled false

/-- The answer of the queue to `receive`. -/
inductive Received
  | envelopes (batch : List QueueEnvelope)
  -- something that is no envelope, behind these
  | foreign (batch : List QueueEnvelope)
  | raised (failure : Failure)
  | cancelled

/-- A pass of the loop. Where the scripts end the deadline has come. -/
structure Round where
  occurrences : List (Occurrence OrderedRegistrationCommand Input World) := []
  received : Received
  scripts : List Script := []

/-- How the `try` block of a command ends. -/
inductive Verdict
  | completed
  | failed (failure : Failure)
  | cancelled

def Deletion.verdict : Deletion → Verdict
  | answered => .completed
  | raised failure _ => .failed failure
  | cancelled _ => .cancelled

/-- What the loop works on. -/
structure WorkerPorts (σ : Type) where
  attempt : OrderedRegistrationCommand → Script → σ → Verdict × σ
  meanwhile : List (Occurrence OrderedRegistrationCommand Input World) → σ → σ

/-- The worker attempts commands in the world. -/
def workerPorts (bot : Deployment) (otherServices : OtherServices) : WorkerPorts World where
  attempt command script world :=
    match (process bot otherServices command).resume storage world script.occurrences with
    | (.done _, world) => (script.deletion.verdict, world)
    | (.fail failure, world) => (.failed failure, world)
    | (.call _ _, world) => (.cancelled, world)
  meanwhile occurrences world := Occurrence.worldAfter world occurrences

/-! ## The run -/

/-- The local variables of a run, with the journal of what it has received, started and completed. -/
structure WorkerRun (σ : Type) where
  state : σ
  pendingReceipts : List String := []
  failedGroups : List String := []
  retryableError : Option Failure := none
  processed : Nat := 0
  received : List QueueEnvelope := []
  started : List QueueEnvelope := []
  completed : List QueueEnvelope := []

/-- What `run` raises. -/
inductive RunFailure
  | timeoutError
  | typeError
  | raised (failure : Failure)
deriving DecidableEq

namespace WorkerRun

variable {σ : Type}

def withState {τ : Type} (s : WorkerRun σ) (state : τ) : WorkerRun τ where
  state := state
  pendingReceipts := s.pendingReceipts
  failedGroups := s.failedGroups
  retryableError := s.retryableError
  processed := s.processed
  received := s.received
  started := s.started
  completed := s.completed

def receive (batch : List QueueEnvelope) (s : WorkerRun σ) : WorkerRun σ :=
  { s with
    pendingReceipts := batch.foldl (fun pending raw => pending.insert raw.receiptHandle) s.pendingReceipts
    received := s.received ++ batch }

def start (raw : QueueEnvelope) (state : σ) (s : WorkerRun σ) : WorkerRun σ :=
  { s with state := state, started := s.started ++ [raw] }

def complete (raw : QueueEnvelope) (s : WorkerRun σ) : WorkerRun σ :=
  { s with
    pendingReceipts := s.pendingReceipts.filter (· ≠ raw.receiptHandle)
    processed := s.processed + 1
    completed := s.completed ++ [raw] }

def fail (raw : QueueEnvelope) (failure : Failure) (s : WorkerRun σ) : WorkerRun σ :=
  { s with
    failedGroups := s.failedGroups.insert raw.groupId
    retryableError := s.retryableError <|> some failure }

def outcome (s : WorkerRun σ) : Except RunFailure Nat :=
  match s.retryableError with
  | some failure => .error (.raised failure)
  | none => .ok s.processed

end WorkerRun

/-- Profile projections go behind the other commands of a batch. -/
def sortEnvelopes (envelopes : List QueueEnvelope) : List QueueEnvelope :=
  sortBy (fun raw => decide (raw.command.operation = .syncProfile)) envelopes

namespace OrderedWorker

variable {σ : Type} (ports : WorkerPorts σ)

/-- The commands of a batch, and whether the loop goes on behind them. -/
def handleEnvelopes : List QueueEnvelope → List Script → WorkerRun σ → Bool × WorkerRun σ
  | [], _, s => (true, s)
  | raw :: envelopes, scripts, s =>
    if raw.groupId ∈ s.failedGroups then
      handleEnvelopes envelopes scripts s
    else
      let (verdict, state) := ports.attempt raw.command (scripts.headD {}) s.state
      let s := s.start raw state
      match verdict with
      | .completed => handleEnvelopes envelopes scripts.tail (s.complete raw)
      | .failed failure => handleEnvelopes envelopes scripts.tail (s.fail raw failure)
      | .cancelled => (false, s)

/-- `_drain`. Where the rounds end the deadline has come between two passes. -/
def drain : List Round → WorkerRun σ → Except RunFailure Nat × WorkerRun σ
  | [], s => (s.outcome, s)
  | round :: rounds, s =>
    let s := s.withState (ports.meanwhile round.occurrences s.state)
    match round.received with
    | .cancelled => (.error .timeoutError, s)
    | .raised failure => (.error (.raised failure), s)
    | .foreign batch => (.error .typeError, s.receive batch)
    | .envelopes batch =>
      if batch.isEmpty then (s.outcome, s)
      else match handleEnvelopes ports (sortEnvelopes batch) round.scripts (s.receive batch) with
        | (false, s) => (.error .timeoutError, s)
        | (true, s) => drain rounds s

/-- `run`: its outcome, the variables by then, and the receipts that it releases. -/
def run (rounds : List Round) (state : σ) : Except RunFailure Nat × WorkerRun σ × List String :=
  let (outcome, s) := drain ports rounds { state := state }
  (outcome, s, s.pendingReceipts)

end OrderedWorker

end LarpBot
