import LarpBot.Adapters.LambdaBatches
import LarpBot.Laws.QueueMessages
import LarpBot.Laws.Retries
import LarpBot.Laws.WorkerRuns

/-!
# Batches that are reported

The response to AWS names the messages of the batch that were not completed. Of each group these are the
ones behind the completed ones (`batch_reported`), so what AWS delivers again is in the order of the group.
-/

namespace LarpBot

open Atomic

variable {casefold : String → String} {now : Moment} {records : List SqsRecord}
  {consumer consumer' : LambdaBatchConsumer}
  {rounds : List Round} {envelopes : List QueueEnvelope} {g : String}

namespace LambdaBatchConsumer

theorem receiptHandle_envelope {record : SqsRecord} {raw : QueueEnvelope}
    (h : envelope casefold now record = .ok raw) : raw.receiptHandle = record.messageId := by
  unfold envelope at h
  split at h
  · exact nomatch h
  · split at h
    · exact nomatch h
    · split at h
      · exact nomatch h
      · rw [← Except.ok.inj h]

theorem receiptHandles_mapM (h : records.mapM (envelope casefold now) = .ok envelopes) :
    envelopes.map QueueEnvelope.receiptHandle = records.map SqsRecord.messageId := by
  induction records generalizing envelopes with
  | nil =>
    rw [List.mapM_nil] at h
    rw [← Except.ok.inj h]
    rfl
  | cons record records ih =>
    rw [List.mapM_cons] at h
    obtain ⟨raw, hraw, h⟩ := exists_of_bind h
    obtain ⟨later, hlater, h⟩ := exists_of_bind h
    rw [← Except.ok.inj h, List.map_cons, List.map_cons, ih hlater, receiptHandle_envelope hraw]

/-- The envelopes of a batch have the identifiers of its records. -/
theorem reset_cases (h : reset casefold now records = .ok consumer) :
    consumer.envelopes.map QueueEnvelope.receiptHandle = records.map SqsRecord.messageId ∧
      consumer.messageIds = records.map SqsRecord.messageId ∧ consumer.delivered = false ∧
      consumer.completed = [] := by
  unfold reset at h
  cases henvelopes : records.mapM (envelope casefold now) with
  | error e =>
    rw [henvelopes] at h
    exact nomatch h
  | ok envelopes =>
    rw [henvelopes] at h
    rw [← Except.ok.inj h]
    exact ⟨receiptHandles_mapM henvelopes, rfl, rfl, rfl⟩

/-- A batch is handed out once. -/
theorem Serves.messages (h : consumer.Serves rounds) : rounds.flatMap Round.messages <+:
    if consumer.delivered then [] else consumer.envelopes := by
  induction rounds generalizing consumer with
  | nil => exact List.nil_prefix
  | cons round rounds ih =>
    obtain ⟨hreceived, -, hlater⟩ := h
    have hmessages : round.messages = consumer.receive.1 := by rw [Round.messages, hreceived]
    rw [List.flatMap_cons, hmessages]
    have hrest := ih hlater
    cases hdelivered : consumer.delivered with
    | true =>
      have hreceive : consumer.receive = ([], consumer) := by rw [receive, hdelivered]; rfl
      rw [hreceive] at hrest ⊢
      rw [hdelivered] at hrest
      exact hrest
    | false =>
      have hreceive : consumer.receive = (consumer.envelopes, { consumer with delivered := true }) := by
        rw [receive, hdelivered]; rfl
      rw [hreceive] at hrest ⊢
      have hnone : rounds.flatMap Round.messages = [] := List.prefix_nil.mp hrest
      rw [hnone, List.append_nil]
      exact List.prefix_refl _

/-- The deletions of messages of the batch are all made. -/
theorem foldlM_delete (consumer : LambdaBatchConsumer) (completed : List QueueEnvelope)
    (hknown : ∀ raw ∈ completed, raw.receiptHandle ∈ consumer.messageIds) :
    ∃ consumer', completed.foldlM (fun consumer raw => delete raw.receiptHandle consumer) consumer = .ok consumer' ∧
      consumer'.messageIds = consumer.messageIds ∧ ∀ messageId, messageId ∈ consumer'.completed ↔
        messageId ∈ consumer.completed ∨ messageId ∈ completed.map QueueEnvelope.receiptHandle := by
  induction completed generalizing consumer with
  | nil => exact ⟨consumer, rfl, rfl, fun messageId => by simp⟩
  | cons raw completed ih =>
    have hdelete : delete raw.receiptHandle consumer =
        .ok { consumer with completed := consumer.completed.insert raw.receiptHandle } := by
      rw [delete, if_neg (not_not.mpr (hknown raw List.mem_cons_self))]
    obtain ⟨consumer', hlater, hids, hcompleted⟩ := ih
      { consumer with completed := consumer.completed.insert raw.receiptHandle }
      fun u hu => hknown u (List.mem_cons_of_mem raw hu)
    refine ⟨consumer', ?_, hids, fun messageId => ?_⟩
    · rw [List.foldlM_cons, hdelete]
      exact hlater
    · rw [hcompleted, List.mem_insert_iff, List.map_cons, List.mem_cons]
      tauto

theorem foldlM_release (consumer : LambdaBatchConsumer) (released : List String)
    (hknown : ∀ receipt ∈ released, receipt ∈ consumer.messageIds) :
    released.foldlM (fun consumer receipt => release receipt consumer) consumer = .ok consumer := by
  induction released with
  | nil => rfl
  | cons receipt released ih =>
    have hrelease : release receipt consumer = .ok consumer := by
      rw [release, if_neg (not_not.mpr (hknown receipt List.mem_cons_self))]
    rw [List.foldlM_cons, hrelease]
    exact ih fun r hr => hknown r (List.mem_cons_of_mem receipt hr)

end LambdaBatchConsumer

/-- A list that begins with some of its members ends with the others. -/
theorem filter_behind {done rest : List QueueEnvelope} (p : QueueEnvelope → Bool)
    (hdone : ∀ raw ∈ done, p raw = false)
    (hrest : ∀ raw ∈ rest, p raw = true) : (done ++ rest).filter p = rest := by
  rw [List.filter_append, List.filter_eq_self.mpr hrest, List.filter_eq_nil_iff.mpr (by simpa using hdone),
    List.nil_append]

/-- What is completed of a group is a first part of the group in a batch of which the run had a first part. -/
theorem Orderly.completed_first {σ : Type} {s : WorkerRun σ} {batch : List QueueEnvelope} (h : Orderly s)
    (hbatch : s.received <+: batch) (g : String) : ofGroup g s.completed <+: ofGroup g batch := by
  have hstarted := (h.started g).trans (hbatch.filter _)
  rcases h.stopped g with hsame | ⟨last, hlast⟩
  · rwa [hsame] at hstarted
  · rw [hlast] at hstarted
    exact (List.prefix_append ..).trans hstarted

/-- A group that begins with what is completed ends with what is not. -/
theorem ofGroup_behind {completed batch : List QueueEnvelope} {p : QueueEnvelope → Bool} {g : String}
    (hfirst : ofGroup g completed <+: ofGroup g batch) (hnodup : batch.Nodup)
    (hp : ∀ raw ∈ batch, p raw = true ↔ raw ∉ completed) :
    ofGroup g batch = ofGroup g completed ++ (ofGroup g batch).filter p := by
  have hmem {raw : QueueEnvelope} (hraw : raw ∈ ofGroup g batch) : raw ∈ batch ∧ raw.groupId = g := by
    obtain ⟨hstored, hgroup⟩ := List.mem_filter.mp hraw
    exact ⟨hstored, of_decide_eq_true hgroup⟩
  have hgroup : (ofGroup g batch).Nodup := hnodup.filter _
  obtain ⟨rest, hrest⟩ := hfirst
  rw [← hrest] at hmem hgroup ⊢
  rw [filter_behind]
  · intro raw hraw
    exact Bool.eq_false_iff.mpr fun hbehind =>
      (hp raw (hmem (List.mem_append_left _ hraw)).1).mp hbehind (List.mem_filter.mp hraw).1
  · intro raw hraw
    obtain ⟨hstored, hown⟩ := hmem (List.mem_append_right _ hraw)
    refine (hp raw hstored).mpr fun hcompleted => ?_
    have hdone : raw ∈ ofGroup g completed := List.mem_filter.mpr ⟨hcompleted, decide_eq_true hown⟩
    exact (List.nodup_append.mp hgroup).2.2 raw hdone raw hraw rfl

/-- However a run on a batch ends, its deletions and releases are of known messages, and the response names
the messages that were not completed. Of each group those are the ones behind the completed ones, in
the order of the batch. -/
theorem batch_reported {σ : Type} (ports : WorkerPorts σ) (state : σ)
    (hreset : LambdaBatchConsumer.reset casefold now records = .ok consumer)
    (hids : (records.map SqsRecord.messageId).Nodup) (hserves : consumer.Serves rounds)
    (hunmixed : Unmixed consumer.envelopes) :
    let (_, s, released) := OrderedWorker.run ports rounds state
    ∃ consumer', consumer.afterRun s.completed released = .ok consumer' ∧
      consumer'.batchResponse =
        (consumer.envelopes.filter fun raw => raw ∉ s.completed).map QueueEnvelope.receiptHandle ∧
      ∀ g, ofGroup g consumer.envelopes = ofGroup g s.completed ++
        (ofGroup g consumer.envelopes).filter fun raw => raw.receiptHandle ∈ consumer'.batchResponse := by
  obtain ⟨hhandles, hmessageIds, hfresh, hnone⟩ := LambdaBatchConsumer.reset_cases hreset
  have hreceived := hserves.messages
  rw [hfresh, if_neg Bool.false_ne_true] at hreceived
  rw [← hhandles] at hids
  have horderly := run_orderly ports rounds state
    (hunmixed.subset fun raw hraw => hreceived.subset hraw)
    (hids.sublist (hreceived.map QueueEnvelope.receiptHandle).sublist)
  have hjournal := received_drain ports rounds ({ state := state } : WorkerRun σ)
  have hrun :
      (OrderedWorker.run ports rounds state).2.1 = (OrderedWorker.drain ports rounds { state := state }).2 := rfl
  rw [← hrun] at hjournal
  generalize OrderedWorker.run ports rounds state = result at horderly hjournal ⊢
  obtain ⟨outcome, s, released⟩ := result
  obtain ⟨hs, hreleased, -⟩ := horderly
  have hbatch : s.received <+: consumer.envelopes := hjournal.trans hreceived
  rw [← hhandles] at hmessageIds
  obtain ⟨consumer', hdeletes, hids', hcompleted⟩ := LambdaBatchConsumer.foldlM_delete consumer
    s.completed fun raw hraw => hmessageIds ▸ List.mem_map_of_mem (hbatch.subset (hs.within hraw))
  have hreleases := LambdaBatchConsumer.foldlM_release consumer' released fun receipt hreceipt => by
    obtain ⟨raw, hraw, rfl, -⟩ := (hreleased receipt).mp hreceipt
    rw [hids', hmessageIds]
    exact List.mem_map_of_mem (hbatch.subset hraw)
  have hknown {raw : QueueEnvelope} (hraw : raw ∈ consumer.envelopes) :
      raw.receiptHandle ∈ consumer'.completed ↔ raw ∈ s.completed := by
    rw [hcompleted, hnone]
    constructor
    · rintro (hin | hin)
      · exact absurd hin List.not_mem_nil
      · obtain ⟨u, hu, hsame⟩ := List.mem_map.mp hin
        rwa [← List.inj_on_of_nodup_map hids (hbatch.subset (hs.within hu)) hraw hsame]
    · exact fun hin => .inr (List.mem_map_of_mem hin)
  have hresponse : consumer'.batchResponse =
      (consumer.envelopes.filter fun raw => raw ∉ s.completed).map QueueEnvelope.receiptHandle := by
    rw [LambdaBatchConsumer.batchResponse, hids', hmessageIds, List.filter_map]
    congr 1
    refine List.filter_congr fun raw hraw => ?_
    exact decide_eq_decide.mpr (not_congr (hknown hraw))
  refine ⟨consumer', ?_, hresponse, fun g => ?_⟩
  · rw [LambdaBatchConsumer.afterRun, hdeletes]
    exact hreleases
  · refine ofGroup_behind (hs.completed_first hbatch g) hids.of_map fun raw hraw => ?_
    rw [decide_eq_true_eq, LambdaBatchConsumer.batchResponse, List.mem_filter, decide_eq_true_eq, hknown hraw,
      hids', hmessageIds]
    exact and_iff_right (List.mem_map_of_mem hraw)

/-! ## A batch that fails halfway -/

/-- The envelope of a command with an operation id of the length that the queue asks for. -/
def sampleEnvelope (command : OrderedRegistrationCommand) (messageId : String) : QueueEnvelope where
  command := { command with operationId := s!"0123456789abcdef0123456789abcdef-{messageId}" }
  receiptHandle := messageId

def QueueEnvelope.record (raw : QueueEnvelope) : SqsRecord where
  messageId := raw.receiptHandle
  body := raw.command.write 10800 ⟨10 ^ 12, some 10800⟩
  messageGroupId := awsOrderedMessageGroup

def wishfulSignup (player : Nat) (wish : String) : OrderedRegistrationCommand :=
  { signup player with
    payload := .enlist { answerId := some "a", displayName := "Игрок", wishPlay := wish }
    payload_fits := rfl
    group_fits := rfl }

/-- Three signups to one event, and a confirmation. -/
def sampleBatch : LambdaBatchConsumer where
  envelopes := [sampleEnvelope (wishfulSignup 1 "друг") "1", sampleEnvelope (wishfulSignup 2 "друг") "2",
    sampleEnvelope (wishfulSignup 3 "друг") "3", sampleEnvelope (wishfulConfirmation 4 "рыцарь") "4"]
  messageIds := ["1", "2", "3", "4"]

/-- The tables are down for the second signup, so the third one is not begun; the confirmation is refused. Then
the batch has been handed out. -/
def sampleRounds : List Round := [
  { received := .envelopes sampleBatch.envelopes
    scripts := [
      { occurrences := List.replicate 30 (.answer (goodDay 0)), deletion := .answered },
      { occurrences := List.replicate 30 (.answer (tableOutage 1)), deletion := .answered },
      { occurrences := List.replicate 40 (.answer (goodDay 2)), deletion := .answered }] },
  { received := .envelopes [] }]

theorem sampleBatch_serves : sampleBatch.Serves sampleRounds := by
  refine ⟨rfl, fun script hscript => ?_, rfl, fun script hscript => absurd hscript List.not_mem_nil, trivial⟩
  rcases List.mem_cons.mp hscript with rfl | hscript
  · rfl
  · rcases List.mem_cons.mp hscript with rfl | hscript
    · rfl
    · rw [List.mem_singleton.mp hscript]

theorem sampleBatch_unmixed : Unmixed sampleBatch.envelopes := by
  have hforeground : ∀ raw ∈ sampleBatch.envelopes, raw.command.operation ≠ .syncProfile := by decide
  exact fun u hu v hv _ => iff_of_false (hforeground u hu) (hforeground v hv)

theorem sampleBatch_reported :
    let (_, s, released) := OrderedWorker.run (workerPorts sampleBot noServices) sampleRounds answerWorld
    ∃ consumer', sampleBatch.afterRun s.completed released = .ok consumer' ∧
      consumer'.batchResponse =
        (sampleBatch.envelopes.filter fun raw => raw ∉ s.completed).map QueueEnvelope.receiptHandle ∧
      ∀ g, ofGroup g sampleBatch.envelopes = ofGroup g s.completed ++
        (ofGroup g sampleBatch.envelopes).filter fun raw => raw.receiptHandle ∈ consumer'.batchResponse := by
  have hreset : LambdaBatchConsumer.reset id ⟨0, some 0⟩ (sampleBatch.envelopes.map QueueEnvelope.record) =
      .ok sampleBatch := by
    decide +kernel
  exact batch_reported (workerPorts sampleBot noServices) answerWorld hreset (by decide) sampleBatch_serves
    sampleBatch_unmixed

-- the first signup and the confirmation are completed
example : (OrderedWorker.run (workerPorts sampleBot noServices) sampleRounds answerWorld).2.1.completed.map
    QueueEnvelope.receiptHandle = ["1", "4"] := by
  decide +kernel

end LarpBot
