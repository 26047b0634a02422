import Mathlib
import LarpBot.Domain.Models
import LarpBot.Foundation.Ranking

/-!
# Registration queues

The rules of `domain/registration_queues.py`. A queue is the active rows of an event in the order
of `queueKey`, an instant and then the participant key, so no two rows of one event tie. A game
without a question has one queue; a question splits it by answer, each with the capacity of its
option. The main roster is the head of each queue.
-/

namespace LarpBot

open Atomic

/-- The instant that a row queues by. -/
def queueTime (row : Registration) : Time :=
  row.answerQueueAt.getD row.createdAt

def queueKey (row : Registration) : Time ×ₗ ParticipantKey :=
  toLex (queueTime row, row.participantKey)

def isActive (row : Registration) : Bool :=
  row.attendanceStatus ≠ .cancelled

def activeQueue (rows : List Registration) (answerId : Option String := none) :
    List Registration :=
  sortBy queueKey <| rows.filter fun row =>
    isActive row && (answerId.isNone || row.answerId = answerId)

/-- `answer_capacity`; `none` stands for its `ValueError`. -/
def answerCapacity (event : Event) (answerId : Option String) : Option Nat :=
  match event.registrationQuestion with
  | none => some event.playerAmount
  | some question => (question.option answerId).map AnswerOption.playerAmount

def mainRoster (event : Event) (rows : List Registration) : List Registration :=
  match event.registrationQuestion with
  | none => (activeQueue rows).take event.playerAmount
  | some question =>
    question.options.flatMap fun option =>
      (activeQueue rows (some option.optionId)).take option.playerAmount

def reserveRoster (event : Event) (rows : List Registration) : List Registration :=
  let mainKeys := (mainRoster event rows).map Registration.participantKey
  (activeQueue rows).filter fun row => row.participantKey ∉ mainKeys

/-- `queue_position`; `none` stands for the `StopIteration` of a row that is not in its queue. -/
def queuePosition (event : Event) (rows : List Registration) (registration : Registration) :
    Option Nat :=
  let answerId := if event.registrationQuestion.isSome then registration.answerId else none
  ((activeQueue rows answerId).findIdx? fun row =>
    row.participantKey = registration.participantKey).map (· + 1)

def answerText (event : Event) (registration : Registration) : String :=
  match event.registrationQuestion with
  | none => ""
  | some question =>
    let answer := ((question.option registration.answerId).map AnswerOption.name).getD "не выбран"
    s!"Дополнительный вопрос: {question.text}\nВаш ответ: {answer}"

end LarpBot
