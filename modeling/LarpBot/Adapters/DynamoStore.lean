import LarpBot.Adapters.MemoryEvents
import LarpBot.Foundation.Transactions
import LarpBot.Foundation.Traces

/-!
# Repositories on DynamoDB

`_DynamoMemoryRepository`: a method loads some items, runs the memory repository on them, and commits
the difference in one transaction, up to four times. What each repository loads, how it reads the
items, and what it wants stored afterwards is a `DynamoRepository`; `execute` is the pipeline they
share. An execution is a program over the requests to the tables, so executions interleave request
by request.

A document stands for the attributes of an item: the key and the index attributes are functions of
it, as both are written together with the payload.
-/

namespace LarpBot

open Atomic

/-- `_MAX_TRANSACTION_ACTIONS`. -/
def maxTransactionActions : Nat := 100

/-! ## The requests -/

/-- One request of a repository. `search` is a scan or a query of an index. -/
inductive Request (D K P X : Type)
  | getItem (k : K)
  | query (partition : P)
  | search (condition : X)
  | now
  | transactWriteItems (actions : List (Action D K))

@[reducible] def Request.Ans {D K P X : Type} : Request D K P X → Type
  | getItem _ => Option (Item D)
  | query _ | search _ => List (Item D)
  | now => Time
  | transactWriteItems _ => Outcome

abbrev requests (D K P X : Type) : Signature :=
  ⟨Request D K P X, Request.Ans⟩

/-- What the service decides at one request: what its scans and indexes show (they are not consistent
snapshots), the instant, and whether it takes a transaction. -/
structure Occasion (D X : Type) where
  found : X → List (Item D)
  now : Time := 0
  verdict : Outcome := .committed

/-! ## Repositories -/

/-- A repository on DynamoDB. `Memory` is the memory repository of the same port; `run` is one of its
methods, with what it raises. -/
structure DynamoRepository (D K P X : Type) where
  key : D → K
  /-- The partition of an item of a table with a sort key. -/
  partition : K → Option P
  Method : Type
  Ans : Method → Type
  Memory : Type
  /-- `_rows_for_call`. -/
  rowsForCall : (m : Method) → Prog (requests D K P X) Fault (List (Item D))
  /-- The `record_type` that `_load` asks for. -/
  records : D → Bool
  load : [DecidableEq K] → Store key → Memory
  run : (m : Method) → Time → Memory → Except Fault (Ans m × Memory)
  /-- `_desired`; an item that is new gets the instant of the execution. -/
  desired : [DecidableEq K] → Time → Store key → Memory → Table key
  /-- `_extra_actions`. -/
  extraActions : [DecidableEq K] → Store key → Table key → List (Action D K)

namespace DynamoRepository

variable {D K P X : Type} [DecidableEq D] [DecidableEq K] (R : DynamoRepository D K P X)

/-- The items that `_load` keeps of the rows it was given. -/
def original (rows : List (Item D)) : Store R.key :=
  .ofList (rows.filter fun item => R.records item.document)

/-- The actions of `_commit`. -/
def actions (now : Time) (original : Store R.key) (memory : R.Memory) : List (Action D K) :=
  let desired := R.desired now original memory
  delta original desired ++ R.extraActions original desired

/-- What one attempt works out from the rows it has loaded: the answer of the method, and the
actions. -/
def worksOut (m : R.Method) (now : Time) (rows : List (Item D)) :
    Except Fault (R.Ans m × List (Action D K)) := do
  let original := R.original rows
  let (answer, memory) ← R.run m now (R.load original)
  return (answer, R.actions now original memory)

variable {R} in
theorem worksOut_eq_ok {m : R.Method} {now : Time} {rows : List (Item D)} {answer : R.Ans m}
    {actions : List (Action D K)} :
    R.worksOut m now rows = .ok (answer, actions) ↔
      ∃ memory, R.run m now (R.load (R.original rows)) = .ok (answer, memory) ∧
        actions = R.actions now (R.original rows) memory := by
  unfold worksOut
  cases hrun : R.run m now (R.load (R.original rows)) with
  | error fault => simp [hrun, bind, Except.bind]
  | ok result =>
    obtain ⟨found, memory⟩ := result
    simp only [hrun, bind, Except.bind, pure, Except.pure, Except.ok.injEq, Prod.mk.injEq]
    constructor
    · rintro ⟨rfl, rfl⟩
      exact ⟨memory, ⟨rfl, rfl⟩, rfl⟩
    · rintro ⟨memory', ⟨rfl, rfl⟩, rfl⟩
      exact ⟨rfl, rfl⟩

variable {R} in
theorem worksOut_of_raised {m : R.Method} {now : Time} {rows : List (Item D)} {fault : Fault}
    (h : R.run m now (R.load (R.original rows)) = .error fault) : R.worksOut m now rows = .error fault := by
  rw [worksOut, h]
  rfl

/-- The `ClientError` of a transaction. -/
def clientError : Fault := .integration "dynamodb"

def tooManyActions (n : Nat) : Fault :=
  .runtimeError s!"DynamoDB mutation requires {n} atomic actions; maximum is {maxTransactionActions}"

/-- `_execute` with some attempts left. -/
def execute (m : R.Method) : Nat → Prog (requests D K P X) Fault (R.Ans m)
  | 0 => throw .assertionError
  | attempts + 1 => do
    let rows ← R.rowsForCall m
    let now ← Prog.ofCall (S := requests D K P X) .now
    match R.worksOut m now rows with
    | .error fault => throw fault
    | .ok (answer, actions) =>
      if actions.isEmpty then return answer
      else if maxTransactionActions < actions.length then throw (tooManyActions actions.length)
      else match ← Prog.ofCall (S := requests D K P X) (.transactWriteItems actions) with
        | .committed => return answer
        | .cancelled => if attempts = 0 then throw clientError else execute m attempts
        | .failed => throw clientError

/-- What a request does to the tables. -/
def perform [DecidableEq P] (c : Request D K P X) (i : Occasion D X) (s : Store R.key) :
    c.Ans × Store R.key :=
  match c with
  | .getItem k => (s.find? k, s)
  | .query partition =>
    ((s.filter fun item => R.partition (R.key item.document) = some partition).rows, s)
  | .search condition => (i.found condition, s)
  | .now => (i.now, s)
  | .transactWriteItems actions => match i.verdict with
    | .committed => transact actions s
    | verdict => (verdict, s)

/-- One execution among others; each runs on its own. -/
structure Execution where
  id : Nat
  method : R.Method

/-- Any number of executions at once. -/
def executions : Jobs (requests D K P X) Fault (Σ m, R.Ans m) R.Execution Nat where
  group := Execution.id
  program := fun execution => do
    let answer ← R.execute execution.method 4
    return ⟨execution.method, answer⟩

end DynamoRepository

end LarpBot
