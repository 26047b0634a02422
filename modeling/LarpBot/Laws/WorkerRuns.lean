import LarpBot.Application.OrderedWorker
import LarpBot.Laws.QueueOrder

/-!
# Runs of the worker

Whatever a run of the worker meets, it keeps the order of each group: what it starts is a prefix of what it
has received, and of that at most the last one is not completed (`Orderly.started`, `Orderly.stopped`). The
sorting of a batch does not disturb this where profile projections have groups of their own (`Unmixed`).

The same run is one of the lanes that the laws of the commands are about: each attempt is at the oldest
command of its lane, and a command leaves when its message is deleted (`run_refines`).
-/

namespace LarpBot

open Atomic

variable {σ : Type} {ports : WorkerPorts σ} {s : WorkerRun σ} {raw : QueueEnvelope}
  {envelopes batch : List QueueEnvelope} {rounds : List Round} {g : String}

/-- The messages of one group. -/
def ofGroup (g : String) (envelopes : List QueueEnvelope) : List QueueEnvelope :=
  envelopes.filter fun raw => raw.groupId = g

/-- No group holds profile projections beside other commands. -/
def Unmixed (envelopes : List QueueEnvelope) : Prop :=
  ∀ u ∈ envelopes, ∀ v ∈ envelopes, u.groupId = v.groupId →
    (u.command.operation = .syncProfile ↔ v.command.operation = .syncProfile)

def Round.messages (round : Round) : List QueueEnvelope :=
  match round.received with
  | .envelopes batch | .foreign batch => batch
  | _ => []

@[simp] theorem ofGroup_nil : ofGroup g [] = [] := rfl

@[simp] theorem ofGroup_append : ofGroup g (envelopes ++ batch) = ofGroup g envelopes ++ ofGroup g batch :=
  List.filter_append ..

@[simp] theorem ofGroup_self : ofGroup raw.groupId (raw :: envelopes) = raw :: ofGroup raw.groupId envelopes :=
  List.filter_cons_of_pos (decide_eq_true rfl)

theorem ofGroup_ne (h : g ≠ raw.groupId) : ofGroup g (raw :: envelopes) = ofGroup g envelopes :=
  List.filter_cons_of_neg (by simpa using Ne.symm h)

/-- The sorting of a batch keeps the order of each group. -/
theorem ofGroup_sortEnvelopes (h : Unmixed batch) : ofGroup g (sortEnvelopes batch) = ofGroup g batch := by
  refine filter_sortBy_of_const fun u hu v hv hug hvg => ?_
  rw [decide_eq_true_eq] at hug hvg
  exact decide_eq_decide.mpr (h u hu v hv (hug.trans hvg.symm))

theorem mem_sortEnvelopes : raw ∈ sortEnvelopes batch ↔ raw ∈ batch :=
  mem_sortBy

theorem Unmixed.subset (h : Unmixed envelopes) (hsub : ∀ raw ∈ batch, raw ∈ envelopes) : Unmixed batch :=
  fun u hu v hv => h u (hsub u hu) v (hsub v hv)

/-! ## The order of a group -/

/-- What holds of a run at its end. -/
structure Orderly (s : WorkerRun σ) : Prop where
  started : ∀ g, ofGroup g s.started <+: ofGroup g s.received
  stopped : ∀ g, ofGroup g s.started = ofGroup g s.completed ∨
    ∃ raw, ofGroup g s.started = ofGroup g s.completed ++ [raw]
  pending : ∀ receipt, receipt ∈ s.pendingReceipts ↔
    receipt ∈ s.received.map QueueEnvelope.receiptHandle ∧ receipt ∉ s.completed.map QueueEnvelope.receiptHandle
  processed : s.processed = s.completed.length

/-- What holds of a run while it works on the messages of a batch. -/
structure Working (s : WorkerRun σ) (envelopes : List QueueEnvelope) : Prop where
  quiet : ∀ g ∉ s.failedGroups, ofGroup g s.started = ofGroup g s.completed
  failed : ∀ g ∈ s.failedGroups, ∃ raw, ofGroup g s.started = ofGroup g s.completed ++ [raw]
  ahead : ∀ g ∉ s.failedGroups, ofGroup g s.started ++ ofGroup g envelopes = ofGroup g s.received
  behind : ∀ g ∈ s.failedGroups, ofGroup g s.started <+: ofGroup g s.received
  retryable : s.retryableError = none → s.failedGroups = []
  within : ∀ raw ∈ s.completed ++ envelopes, raw ∈ s.received
  pending : ∀ receipt, receipt ∈ s.pendingReceipts ↔
    receipt ∈ s.received.map QueueEnvelope.receiptHandle ∧ receipt ∉ s.completed.map QueueEnvelope.receiptHandle
  processed : s.processed = s.completed.length

theorem Working.orderly (h : Working s envelopes) : Orderly s := by
  refine ⟨fun g => ?_, fun g => ?_, h.pending, h.processed⟩
  · by_cases hg : g ∈ s.failedGroups
    · exact h.behind g hg
    · exact ⟨_, h.ahead g hg⟩
  · by_cases hg : g ∈ s.failedGroups
    · exact .inr (h.failed g hg)
    · exact .inl (h.quiet g hg)

/-- The messages of a group that has failed are passed over. -/
theorem Working.skip (h : Working s (raw :: envelopes)) (hg : raw.groupId ∈ s.failedGroups) :
    Working s envelopes := by
  refine { h with ahead := fun g hgood => ?_, within := fun u hu => h.within u ?_ }
  · have hne : g ≠ raw.groupId := fun heq => hgood (heq ▸ hg)
    rw [← h.ahead g hgood, ofGroup_ne hne]
  · rw [List.mem_append] at hu ⊢
    exact hu.imp_right (List.mem_cons_of_mem raw)

/-- A message that is started is the next one of its group. -/
theorem Working.next (h : Working s (raw :: envelopes)) (hg : raw.groupId ∉ s.failedGroups) :
    ofGroup raw.groupId s.started ++ raw :: ofGroup raw.groupId envelopes = ofGroup raw.groupId s.received := by
  have hnext := h.ahead raw.groupId hg
  rwa [ofGroup_self] at hnext

theorem Working.next_prefix (h : Working s (raw :: envelopes)) (hg : raw.groupId ∉ s.failedGroups) :
    ofGroup raw.groupId s.started ++ [raw] <+: ofGroup raw.groupId s.received := by
  rw [← h.next hg]
  exact (List.prefix_append_right_inj _).mpr ⟨ofGroup raw.groupId envelopes, rfl⟩

theorem ofGroup_snoc : ofGroup raw.groupId (envelopes ++ [raw]) = ofGroup raw.groupId envelopes ++ [raw] := by
  rw [ofGroup_append, ofGroup_self, ofGroup_nil]

theorem ofGroup_snoc_ne (h : g ≠ raw.groupId) : ofGroup g (envelopes ++ [raw]) = ofGroup g envelopes := by
  rw [ofGroup_append, ofGroup_ne h, ofGroup_nil, List.append_nil]

theorem Working.complete (h : Working s (raw :: envelopes)) (hg : raw.groupId ∉ s.failedGroups) (state : σ) :
    Working ((s.start raw state).complete raw) envelopes := by
  refine ⟨fun g hgood => ?_, fun g hbad => ?_, fun g hgood => ?_, fun g hbad => ?_, h.retryable, fun u hu => ?_,
    fun receipt => ?_, ?_⟩
  · show ofGroup g (s.started ++ [raw]) = ofGroup g (s.completed ++ [raw])
    rw [ofGroup_append, ofGroup_append, h.quiet g hgood]
  · have hne : g ≠ raw.groupId := fun heq => hg (heq ▸ hbad)
    show ∃ last, ofGroup g (s.started ++ [raw]) = ofGroup g (s.completed ++ [raw]) ++ [last]
    rw [ofGroup_snoc_ne hne, ofGroup_snoc_ne hne]
    exact h.failed g hbad
  · show ofGroup g (s.started ++ [raw]) ++ ofGroup g envelopes = ofGroup g s.received
    by_cases heq : g = raw.groupId
    · subst heq
      rw [ofGroup_snoc, List.append_assoc]
      exact h.next hg
    · rw [ofGroup_snoc_ne heq, ← h.ahead g hgood, ofGroup_ne heq]
  · have hne : g ≠ raw.groupId := fun heq => hg (heq ▸ hbad)
    show ofGroup g (s.started ++ [raw]) <+: ofGroup g s.received
    rw [ofGroup_snoc_ne hne]
    exact h.behind g hbad
  · apply h.within u
    have hu : u ∈ (s.completed ++ [raw]) ++ envelopes := hu
    rwa [List.append_assoc] at hu
  · show receipt ∈ s.pendingReceipts.filter (· ≠ raw.receiptHandle) ↔
      receipt ∈ s.received.map QueueEnvelope.receiptHandle ∧
        receipt ∉ (s.completed ++ [raw]).map QueueEnvelope.receiptHandle
    rw [List.mem_filter, h.pending, List.map_append, List.mem_append, decide_eq_true_eq]
    simp [and_assoc]
  · show s.processed + 1 = (s.completed ++ [raw]).length
    rw [h.processed, List.length_append, List.length_singleton]

theorem Working.fail (h : Working s (raw :: envelopes)) (hg : raw.groupId ∉ s.failedGroups) (state : σ)
    (failure : Failure) : Working ((s.start raw state).fail raw failure) envelopes := by
  refine ⟨fun g hgood => ?_, fun g hbad => ?_, fun g hgood => ?_, fun g hbad => ?_, fun hnone => ?_, fun u hu => ?_,
    h.pending, h.processed⟩
  · have hgood : g ∉ s.failedGroups.insert raw.groupId := hgood
    rw [List.mem_insert_iff, not_or] at hgood
    show ofGroup g (s.started ++ [raw]) = _
    rw [ofGroup_snoc_ne hgood.1]
    exact h.quiet g hgood.2
  · show ∃ last, ofGroup g (s.started ++ [raw]) = ofGroup g s.completed ++ [last]
    rcases List.mem_insert_iff.mp hbad with rfl | hbad
    · rw [ofGroup_snoc, h.quiet _ hg]
      exact ⟨raw, rfl⟩
    · have hne : g ≠ raw.groupId := fun heq => hg (heq ▸ hbad)
      rw [ofGroup_snoc_ne hne]
      exact h.failed g hbad
  · have hgood : g ∉ s.failedGroups.insert raw.groupId := hgood
    rw [List.mem_insert_iff, not_or] at hgood
    show ofGroup g (s.started ++ [raw]) ++ ofGroup g envelopes = ofGroup g s.received
    rw [ofGroup_snoc_ne hgood.1, ← h.ahead g hgood.2, ofGroup_ne hgood.1]
  · show ofGroup g (s.started ++ [raw]) <+: ofGroup g s.received
    rcases List.mem_insert_iff.mp hbad with rfl | hbad
    · rw [ofGroup_snoc]
      exact h.next_prefix hg
    · have hne : g ≠ raw.groupId := fun heq => hg (heq ▸ hbad)
      rw [ofGroup_snoc_ne hne]
      exact h.behind g hbad
  · have hnone : (s.retryableError <|> some failure) = none := hnone
    cases hearlier : s.retryableError <;> rw [hearlier] at hnone <;> exact nomatch hnone
  · apply h.within u
    have hu : u ∈ s.completed ++ envelopes := hu
    rw [List.mem_append] at hu ⊢
    exact hu.imp_right (List.mem_cons_of_mem raw)

/-- A command that the deadline cancels is the last one that is started. -/
theorem Working.cancel (h : Working s (raw :: envelopes)) (hg : raw.groupId ∉ s.failedGroups) (state : σ) :
    Orderly (s.start raw state) := by
  refine ⟨fun g => ?_, fun g => ?_, h.pending, h.processed⟩
  · show ofGroup g (s.started ++ [raw]) <+: ofGroup g s.received
    by_cases heq : g = raw.groupId
    · subst heq
      rw [ofGroup_snoc]
      exact h.next_prefix hg
    · rw [ofGroup_snoc_ne heq]
      exact h.orderly.started g
  · show ofGroup g (s.started ++ [raw]) = _ ∨ ∃ last, ofGroup g (s.started ++ [raw]) = _
    by_cases heq : g = raw.groupId
    · subst heq
      rw [ofGroup_snoc, h.quiet _ hg]
      exact .inr ⟨raw, rfl⟩
    · rw [ofGroup_snoc_ne heq]
      exact h.orderly.stopped g

theorem mem_foldl_insert {receipt : String} (batch : List QueueEnvelope) (pending : List String) :
    receipt ∈ batch.foldl (fun pending raw => pending.insert raw.receiptHandle) pending ↔
      receipt ∈ pending ∨ receipt ∈ batch.map QueueEnvelope.receiptHandle := by
  induction batch generalizing pending with
  | nil => simp
  | cons raw batch ih =>
    rw [List.foldl_cons, ih, List.mem_insert_iff, List.map_cons, List.mem_cons]
    tauto

/-- A batch is received when the last one is done with. -/
theorem Working.receive (h : Working s []) (hunmixed : Unmixed batch)
    (hreceipts : ((s.received ++ batch).map QueueEnvelope.receiptHandle).Nodup) :
    Working (s.receive batch) (sortEnvelopes batch) := by
  rw [List.map_append] at hreceipts
  refine ⟨h.quiet, h.failed, fun g hgood => ?_, fun g hbad => ?_, h.retryable, fun raw hraw => ?_, fun receipt => ?_,
    h.processed⟩
  · show ofGroup g s.started ++ ofGroup g (sortEnvelopes batch) = ofGroup g (s.received ++ batch)
    have hdone := h.ahead g hgood
    rw [ofGroup_nil, List.append_nil] at hdone
    rw [ofGroup_sortEnvelopes hunmixed, ofGroup_append, hdone]
  · show ofGroup g s.started <+: ofGroup g (s.received ++ batch)
    rw [ofGroup_append]
    exact (h.behind g hbad).trans (List.prefix_append ..)
  · show raw ∈ s.received ++ batch
    have hraw : raw ∈ s.completed ++ sortEnvelopes batch := hraw
    rw [List.mem_append, mem_sortEnvelopes] at hraw
    rw [List.mem_append]
    exact hraw.imp_left fun hin => h.within raw (List.mem_append_left _ hin)
  · show receipt ∈ batch.foldl (fun pending raw => pending.insert raw.receiptHandle) s.pendingReceipts ↔
      receipt ∈ (s.received ++ batch).map QueueEnvelope.receiptHandle ∧
        receipt ∉ s.completed.map QueueEnvelope.receiptHandle
    rw [mem_foldl_insert, h.pending, List.map_append, List.mem_append]
    have hnew (hin : receipt ∈ batch.map QueueEnvelope.receiptHandle) :
        receipt ∉ s.completed.map QueueEnvelope.receiptHandle := by
      intro hcompleted
      obtain ⟨raw, hraw, rfl⟩ := List.mem_map.mp hcompleted
      exact (List.nodup_append.mp hreceipts).2.2 _
        (List.mem_map_of_mem (h.within raw (List.mem_append_left _ hraw))) _ hin rfl
    tauto

/-- The messages of a batch. -/
theorem handleEnvelopes_orderly (ports : WorkerPorts σ) (h : Working s envelopes) (scripts : List Script) :
    Orderly (OrderedWorker.handleEnvelopes ports envelopes scripts s).2 ∧
      ((OrderedWorker.handleEnvelopes ports envelopes scripts s).1 = true →
        Working (OrderedWorker.handleEnvelopes ports envelopes scripts s).2 []) ∧
      (OrderedWorker.handleEnvelopes ports envelopes scripts s).2.received = s.received := by
  induction envelopes generalizing s scripts with
  | nil => exact ⟨h.orderly, fun _ => h, rfl⟩
  | cons raw envelopes ih =>
    unfold OrderedWorker.handleEnvelopes
    by_cases hg : raw.groupId ∈ s.failedGroups
    · rw [if_pos hg]
      exact ih (h.skip hg) scripts
    · rw [if_neg hg]
      generalize ports.attempt raw.command (scripts.headD {}) s.state = attempted
      obtain ⟨verdict, state⟩ := attempted
      cases verdict with
      | completed => exact ih (h.complete hg state) scripts.tail
      | failed failure => exact ih (h.fail hg state failure) scripts.tail
      | cancelled => exact ⟨h.cancel hg state, nofun, rfl⟩

theorem Working.state (h : Working s envelopes) (state : σ) : Working (s.withState state) envelopes :=
  ⟨h.quiet, h.failed, h.ahead, h.behind, h.retryable, h.within, h.pending, h.processed⟩

/-- A run without an error has completed what it has received. -/
theorem Working.outcome (h : Working s []) {n : Nat} (hn : s.outcome = .ok n) :
    n = s.completed.length ∧ ∀ g, ofGroup g s.completed = ofGroup g s.received := by
  unfold WorkerRun.outcome at hn
  cases hfailure : s.retryableError with
  | some failure =>
    rw [hfailure] at hn
    exact nomatch hn
  | none =>
    rw [hfailure] at hn
    refine ⟨(Except.ok.inj hn).symm.trans h.processed, fun g => ?_⟩
    have hgood : g ∉ s.failedGroups := by
      rw [h.retryable hfailure]
      exact List.not_mem_nil
    rw [← h.ahead g hgood, ← h.quiet g hgood, ofGroup_nil, List.append_nil]

theorem drain_orderly (ports : WorkerPorts σ) (h : Working s []) (hunmixed : Unmixed (rounds.flatMap Round.messages))
    (hreceipts : ((s.received ++ rounds.flatMap Round.messages).map QueueEnvelope.receiptHandle).Nodup) :
    Orderly (OrderedWorker.drain ports rounds s).2 ∧ ∀ n, (OrderedWorker.drain ports rounds s).1 = .ok n →
      n = (OrderedWorker.drain ports rounds s).2.completed.length ∧
        ∀ g, ofGroup g (OrderedWorker.drain ports rounds s).2.completed =
          ofGroup g (OrderedWorker.drain ports rounds s).2.received := by
  induction rounds generalizing s with
  | nil => exact ⟨h.orderly, fun n => h.outcome⟩
  | cons round rounds ih =>
    have hs := h.state (ports.meanwhile round.occurrences s.state)
    unfold OrderedWorker.drain
    dsimp only
    rw [List.flatMap_cons] at hunmixed hreceipts
    have hbatch {batch : List QueueEnvelope} (hmessages : round.messages = batch) :
        Working ((s.withState (ports.meanwhile round.occurrences s.state)).receive batch)
          (sortEnvelopes batch) := by
      subst hmessages
      refine hs.receive (hunmixed.subset fun raw => List.mem_append_left _) ?_
      rw [← List.append_assoc, List.map_append] at hreceipts
      exact (List.nodup_append.mp hreceipts).1
    cases hreceived : round.received with
    | cancelled => exact ⟨hs.orderly, nofun⟩
    | raised failure => exact ⟨hs.orderly, nofun⟩
    | foreign batch =>
      have hmessages : round.messages = batch := by rw [Round.messages, hreceived]
      exact ⟨(hbatch hmessages).orderly, nofun⟩
    | envelopes batch =>
      have hmessages : round.messages = batch := by rw [Round.messages, hreceived]
      dsimp only
      by_cases hempty : batch.isEmpty = true
      · rw [if_pos hempty]
        exact ⟨hs.orderly, fun n => hs.outcome⟩
      · rw [if_neg hempty]
        obtain ⟨horderly, hworking, hjournal⟩ := handleEnvelopes_orderly ports (hbatch hmessages) round.scripts
        generalize OrderedWorker.handleEnvelopes ports (sortEnvelopes batch) round.scripts _ = handled at *
        obtain ⟨goesOn, s'⟩ := handled
        cases goesOn with
        | false => exact ⟨horderly, nofun⟩
        | true =>
          refine ih (hworking rfl) (hunmixed.subset fun raw => List.mem_append_right _) ?_
          have hjournal : s'.received = s.received ++ batch := hjournal
          rw [hjournal, List.append_assoc, ← hmessages]
          exact hreceipts

theorem received_handleEnvelopes (ports : WorkerPorts σ) (envelopes : List QueueEnvelope)
    (scripts : List Script) (s : WorkerRun σ) :
    (OrderedWorker.handleEnvelopes ports envelopes scripts s).2.received = s.received := by
  induction envelopes generalizing s scripts with
  | nil => rfl
  | cons raw envelopes ih =>
    unfold OrderedWorker.handleEnvelopes
    split
    · exact ih scripts s
    · generalize ports.attempt raw.command (scripts.headD {}) s.state = attempted
      obtain ⟨verdict, state⟩ := attempted
      cases verdict with
      | completed => exact ih scripts.tail _
      | failed failure => exact ih scripts.tail _
      | cancelled => rfl

/-- What a run has received are messages of its batches. -/
theorem received_drain (ports : WorkerPorts σ) (rounds : List Round) (s : WorkerRun σ) :
    (OrderedWorker.drain ports rounds s).2.received <+: s.received ++ rounds.flatMap Round.messages := by
  induction rounds generalizing s with
  | nil => exact List.prefix_append ..
  | cons round rounds ih =>
    unfold OrderedWorker.drain
    dsimp only
    rw [List.flatMap_cons, ← List.append_assoc]
    have hfirst : s.received ++ round.messages <+: s.received ++ round.messages ++ rounds.flatMap Round.messages :=
      List.prefix_append ..
    cases hreceived : round.received with
    | cancelled => exact (List.prefix_append ..).trans hfirst
    | raised failure => exact (List.prefix_append ..).trans hfirst
    | foreign batch =>
      have hmessages : round.messages = batch := by rw [Round.messages, hreceived]
      rw [hmessages] at hfirst ⊢
      exact hfirst
    | envelopes batch =>
      have hmessages : round.messages = batch := by rw [Round.messages, hreceived]
      rw [hmessages] at hfirst ⊢
      dsimp only
      split
      · exact (List.prefix_append ..).trans hfirst
      · have hjournal := received_handleEnvelopes ports (sortEnvelopes batch) round.scripts
          ((s.withState (ports.meanwhile round.occurrences s.state)).receive batch)
        generalize OrderedWorker.handleEnvelopes ports (sortEnvelopes batch) round.scripts _ = handled at *
        obtain ⟨goesOn, s'⟩ := handled
        have hjournal : s'.received = s.received ++ batch := hjournal
        rw [← hjournal]
        cases goesOn with
        | false => exact List.prefix_append ..
        | true => exact ih s'

theorem Orderly.within (h : Orderly s) (hraw : raw ∈ s.completed) : raw ∈ s.received := by
  have hown : raw ∈ ofGroup raw.groupId s.completed := List.mem_filter.mpr ⟨hraw, decide_eq_true rfl⟩
  have hstarted : raw ∈ ofGroup raw.groupId s.started := by
    rcases h.stopped raw.groupId with hsame | ⟨last, hlast⟩
    · rwa [hsame]
    · rw [hlast]
      exact List.mem_append_left _ hown
  exact (List.mem_filter.mp ((h.started raw.groupId).subset hstarted)).1

theorem perm_of_ofGroup (h : ∀ g, ofGroup g envelopes = ofGroup g batch) : envelopes.Perm batch := by
  rw [List.perm_iff_count]
  intro raw
  have hown : (decide (raw.groupId = raw.groupId)) = true := decide_eq_true rfl
  rw [← List.count_filter (p := fun u : QueueEnvelope => decide (u.groupId = raw.groupId)) hown,
    ← List.count_filter (p := fun u : QueueEnvelope => decide (u.groupId = raw.groupId)) hown (l := batch)]
  exact congrArg (List.count raw) (h raw.groupId)

theorem working_start (state : σ) : Working { state := state } [] where
  quiet _ _ := rfl
  failed _ h := absurd h List.not_mem_nil
  ahead _ _ := rfl
  behind _ h := absurd h List.not_mem_nil
  retryable _ := rfl
  within _ h := absurd h List.not_mem_nil
  pending _ := iff_of_false List.not_mem_nil fun h => absurd h.1 List.not_mem_nil
  processed := rfl

/-- Whatever a run meets, of each group it starts a prefix of what it has received, in the order of its
receipt, and stops behind the first command that is not completed; it releases the messages that it has
received and not completed, and no others; and if it raises nothing it has completed them all. -/
theorem run_orderly (ports : WorkerPorts σ) (rounds : List Round) (state : σ)
    (hunmixed : Unmixed (rounds.flatMap Round.messages))
    (hreceipts : ((rounds.flatMap Round.messages).map QueueEnvelope.receiptHandle).Nodup) :
    let (outcome, s, released) := OrderedWorker.run ports rounds state
    Orderly s ∧
      (∀ receipt, receipt ∈ released ↔
        ∃ raw ∈ s.received, raw.receiptHandle = receipt ∧ raw ∉ s.completed) ∧
      ∀ n, outcome = .ok n → n = s.received.length ∧ s.completed.Perm s.received := by
  obtain ⟨horderly, houtcome⟩ := drain_orderly ports (working_start state) hunmixed hreceipts
  have hjournal := received_drain ports rounds ({ state := state } : WorkerRun σ)
  unfold OrderedWorker.run
  generalize OrderedWorker.drain ports rounds { state := state } = result at *
  obtain ⟨outcome, s⟩ := result
  have hnodup : (s.received.map QueueEnvelope.receiptHandle).Nodup :=
    hreceipts.sublist (hjournal.map QueueEnvelope.receiptHandle).sublist
  refine ⟨horderly, fun receipt => ?_, fun n hn => ?_⟩
  · rw [horderly.pending]
    constructor
    · rintro ⟨hin, hnot⟩
      obtain ⟨raw, hraw, rfl⟩ := List.mem_map.mp hin
      exact ⟨raw, hraw, rfl, fun hcompleted => hnot (List.mem_map_of_mem hcompleted)⟩
    · rintro ⟨raw, hraw, rfl, hnot⟩
      refine ⟨List.mem_map_of_mem hraw, fun hcompleted => ?_⟩
      obtain ⟨u, hu, hsame⟩ := List.mem_map.mp hcompleted
      rw [List.inj_on_of_nodup_map hnodup (horderly.within hu) hraw hsame] at hu
      exact hnot hu
  · obtain ⟨hcount, hgroups⟩ := houtcome n hn
    have hperm := perm_of_ofGroup hgroups
    exact ⟨hcount.trans hperm.length_eq, hperm⟩

/-! ## The run as one of the lanes -/

def Deletion.effective : Deletion → Bool
  | answered => true
  | raised _ effective | cancelled effective => effective

section Lanes

variable (bot : Deployment) (otherServices : OtherServices) (s₀ : Plant)

/-- The lanes after some steps. -/
def after (schedule : List Move) : Plant :=
  s₀.play (queue bot otherServices) storage schedule

/-- The worker as a schedule of the lanes: an attempt is one at the oldest command of the group. -/
def lanePorts : WorkerPorts (List Move) where
  attempt command script schedule :=
    (((workerPorts bot otherServices).attempt command script (after bot otherServices s₀ schedule).world).1,
      schedule ++ Fleet.attemptWith command.queueGroupId script.occurrences script.deletion.effective)
  meanwhile occurrences schedule := schedule ++ occurrences.filterMap Occurrence.idle?

/-- The queue hands out a group in order: unless the group has failed, its messages in a batch are the
oldest of its lane. -/
def Fifo : List Round → WorkerRun (List Move) → Prop
  | [], _ => True
  | round :: rounds, s =>
    let s := s.withState ((lanePorts bot otherServices s₀).meanwhile round.occurrences s.state)
    match round.received with
    | .envelopes batch =>
      (∀ raw ∈ batch, raw.groupId ∉ s.failedGroups → (ofGroup raw.groupId batch).map QueueEnvelope.command <+:
        ((after bot otherServices s₀ s.state).lanes raw.groupId).jobs) ∧
      let handled := OrderedWorker.handleEnvelopes (lanePorts bot otherServices s₀) (sortEnvelopes batch)
        round.scripts (s.receive batch)
      handled.1 = true → Fifo rounds handled.2
    | _ => True

/-- The commands that the steps of a schedule put into a lane. -/
def publishedIn (g : String) (schedule : List Move) : List OrderedRegistrationCommand :=
  Fleet.publishedBy OrderedRegistrationCommand.queueGroupId g schedule

/-- The account of a lane: the jobs of the start and those that the steps have published are those that have
gone and those that are left; what was completed has gone, and what has gone was started. -/
structure Balance (s : WorkerRun (List Move)) (g : String) (jobs gone : List OrderedRegistrationCommand) :
    Prop where
  resting : (after bot otherServices s₀ s.state).lanes g = .resting jobs
  total : (s₀.lanes g).jobs ++ publishedIn g s.state = gone ++ jobs
  completed : (ofGroup g s.completed).map QueueEnvelope.command <+: gone
  started : gone <+: (ofGroup g s.started).map QueueEnvelope.command

def Balanced (s : WorkerRun (List Move)) : Prop :=
  ∀ g, ∃ jobs gone, Balance bot otherServices s₀ s g jobs gone

/-- A balance in the middle of a batch: the messages of a group that goes on are the oldest of its lane. -/
def InLanes (s : WorkerRun (List Move)) (envelopes : List QueueEnvelope) : Prop :=
  ∀ g, ∃ jobs gone, Balance bot otherServices s₀ s g jobs gone ∧
    (g ∉ s.failedGroups → ofGroup g s.started = ofGroup g s.completed ∧
      gone = (ofGroup g s.completed).map QueueEnvelope.command ∧
      (ofGroup g envelopes).map QueueEnvelope.command <+: jobs)

variable {bot otherServices s₀} {s s' : WorkerRun (List Move)} {jobs gone rest : List OrderedRegistrationCommand}
  {script : Script}

theorem InLanes.balanced (h : InLanes bot otherServices s₀ s envelopes) : Balanced bot otherServices s₀ s := by
  intro g
  obtain ⟨jobs, gone, hbalance, -⟩ := h g
  exact ⟨jobs, gone, hbalance⟩

theorem after_append (schedule later : List Move) : after bot otherServices s₀ (schedule ++ later) =
    (after bot otherServices s₀ schedule).play (queue bot otherServices) storage later :=
  Fleet.play_append ..

/-- What an attempt at the oldest command of a lane leaves there. -/
theorem after_attempt (s' : WorkerRun (List Move)) {leaves : Bool}
    (hlane : (after bot otherServices s₀ s.state).lanes raw.groupId = .resting (raw.command :: rest))
    (hstate : s'.state = s.state ++ Fleet.attemptWith raw.groupId script.occurrences leaves) :
    (after bot otherServices s₀ s'.state).world = ((process bot otherServices raw.command).resume storage
        (after bot otherServices s₀ s.state).world script.occurrences).2 ∧
      (after bot otherServices s₀ s'.state).lanes raw.groupId = .resting (Fleet.remaining
        ((process bot otherServices raw.command).resume storage
          (after bot otherServices s₀ s.state).world script.occurrences).1 leaves raw.command
        (rest ++ Occurrence.published OrderedRegistrationCommand.queueGroupId raw.groupId script.occurrences)) ∧
      ∀ g waiting, g ≠ raw.groupId → (after bot otherServices s₀ s.state).lanes g = .resting waiting →
        (after bot otherServices s₀ s'.state).lanes g = .resting (waiting ++
          Occurrence.published OrderedRegistrationCommand.queueGroupId g script.occurrences) := by
  rw [hstate, after_append]
  exact Fleet.play_attemptWith hlane script.occurrences leaves

/-- What the journal has on a message after its attempt. -/
structure Journaled (raw : QueueEnvelope) (s s' : WorkerRun (List Move)) : Prop where
  started : s'.started = s.started ++ [raw]
  completed : s'.completed = s.completed ∨ s'.completed = s.completed ++ [raw]

theorem Journaled.elsewhere (h : Journaled raw s s') (hne : g ≠ raw.groupId) :
    ofGroup g s'.started = ofGroup g s.started ∧ ofGroup g s'.completed = ofGroup g s.completed := by
  constructor
  · rw [h.started, ofGroup_snoc_ne hne]
  · rcases h.completed with hsame | hsnoc
    · rw [hsame]
    · rw [hsnoc, ofGroup_snoc_ne hne]

variable {added : List OrderedRegistrationCommand}

/-- The commands that get into a lane during an attempt. -/
theorem publishedIn_attempt (s' : WorkerRun (List Move)) {leaves : Bool} (g : String)
    (hstate : s'.state = s.state ++ Fleet.attemptWith raw.groupId script.occurrences leaves) :
    publishedIn g s'.state = publishedIn g s.state ++
      Occurrence.published OrderedRegistrationCommand.queueGroupId g script.occurrences := by
  rw [publishedIn, hstate, Fleet.publishedBy_append, Fleet.publishedBy_attemptWith]
  rfl

theorem Balance.elsewhere (h : Balance bot otherServices s₀ s g jobs gone) (hne : g ≠ raw.groupId)
    (hjournal : Journaled raw s s') (hlane : (after bot otherServices s₀ s'.state).lanes g = .resting (jobs ++ added))
    (hadded : publishedIn g s'.state = publishedIn g s.state ++ added) :
    Balance bot otherServices s₀ s' g (jobs ++ added) gone := by
  obtain ⟨hstarted, hcompleted⟩ := hjournal.elsewhere hne
  refine ⟨hlane, ?_, ?_, ?_⟩
  · rw [hadded, ← List.append_assoc, h.total, List.append_assoc]
  · rw [hcompleted]
    exact h.completed
  · rw [hstarted]
    exact h.started

/-- A message that is not deleted leaves its command in the lane. -/
theorem Balance.stays (h : Balance bot otherServices s₀ s raw.groupId (raw.command :: rest) gone)
    (hstarted : s'.started = s.started ++ [raw]) (hcompleted : s'.completed = s.completed)
    (hlane : (after bot otherServices s₀ s'.state).lanes raw.groupId = .resting (raw.command :: (rest ++ added)))
    (hadded : publishedIn raw.groupId s'.state = publishedIn raw.groupId s.state ++ added) :
    Balance bot otherServices s₀ s' raw.groupId (raw.command :: (rest ++ added)) gone := by
  refine ⟨hlane, ?_, ?_, ?_⟩
  · rw [hadded, ← List.append_assoc, h.total, List.append_assoc, List.cons_append]
  · rw [hcompleted]
    exact h.completed
  · rw [hstarted, ofGroup_snoc, List.map_append]
    exact h.started.trans (List.prefix_append ..)

/-- A message that is deleted takes its command out of the lane. -/
theorem Balance.goes (h : Balance bot otherServices s₀ s raw.groupId (raw.command :: rest) gone)
    (hquiet : ofGroup raw.groupId s.started = ofGroup raw.groupId s.completed)
    (hgone : gone = (ofGroup raw.groupId s.completed).map QueueEnvelope.command) (hjournal : Journaled raw s s')
    (hlane : (after bot otherServices s₀ s'.state).lanes raw.groupId = .resting (rest ++ added))
    (hadded : publishedIn raw.groupId s'.state = publishedIn raw.groupId s.state ++ added) :
    Balance bot otherServices s₀ s' raw.groupId (rest ++ added) (gone ++ [raw.command]) := by
  refine ⟨hlane, ?_, ?_, ?_⟩
  · rw [hadded, ← List.append_assoc, h.total]
    simp
  · rcases hjournal.completed with hsame | hsnoc
    · rw [hsame, hgone]
      exact List.prefix_append ..
    · rw [hsnoc, ofGroup_snoc, List.map_append, hgone]
      exact List.prefix_refl _
  · rw [hjournal.started, ofGroup_snoc, List.map_append, hquiet, hgone]
    exact List.prefix_refl _

/-- The oldest command of the lane is the one that is started. -/
theorem InLanes.oldest (h : InLanes bot otherServices s₀ s (raw :: envelopes)) (hg : raw.groupId ∉ s.failedGroups) :
    ∃ rest, Balance bot otherServices s₀ s raw.groupId (raw.command :: rest)
        ((ofGroup raw.groupId s.completed).map QueueEnvelope.command) ∧
      ofGroup raw.groupId s.started = ofGroup raw.groupId s.completed ∧
      (ofGroup raw.groupId envelopes).map QueueEnvelope.command <+: rest := by
  obtain ⟨jobs, gone, hbalance, hgood⟩ := h raw.groupId
  obtain ⟨hquiet, rfl, hbatch⟩ := hgood hg
  rw [ofGroup_self, List.map_cons] at hbatch
  obtain ⟨more, rfl⟩ := hbatch
  exact ⟨_, hbalance, hquiet, List.prefix_append ..⟩

theorem InLanes.skip (h : InLanes bot otherServices s₀ s (raw :: envelopes)) (hg : raw.groupId ∈ s.failedGroups) :
    InLanes bot otherServices s₀ s envelopes := by
  intro g
  obtain ⟨jobs, gone, hbalance, hgood⟩ := h g
  refine ⟨jobs, gone, hbalance, fun hnot => ?_⟩
  have hne : g ≠ raw.groupId := fun heq => hnot (heq ▸ hg)
  have hbatch := hgood hnot
  rw [ofGroup_ne hne] at hbatch
  exact hbatch

/-- The other lanes have only got new commands, so what is true of a lane is said for the one of the attempt. -/
theorem InLanes.attempt (h : InLanes bot otherServices s₀ s (raw :: envelopes))
    (hjournal : Journaled raw s s') {leaves : Bool}
    (hstate : s'.state = s.state ++ Fleet.attemptWith raw.groupId script.occurrences leaves)
    (hgroups : ∀ g ≠ raw.groupId, g ∈ s.failedGroups → g ∈ s'.failedGroups)
    (hlane : (after bot otherServices s₀ s.state).lanes raw.groupId = .resting (raw.command :: rest))
    (hown : ∃ jobs gone, Balance bot otherServices s₀ s' raw.groupId jobs gone ∧
      (raw.groupId ∉ s'.failedGroups → ofGroup raw.groupId s'.started = ofGroup raw.groupId s'.completed ∧
        gone = (ofGroup raw.groupId s'.completed).map QueueEnvelope.command ∧
        (ofGroup raw.groupId envelopes).map QueueEnvelope.command <+: jobs)) :
    InLanes bot otherServices s₀ s' envelopes := by
  intro g
  by_cases heq : g = raw.groupId
  · subst heq
    exact hown
  · obtain ⟨jobs, gone, hbalance, hgood⟩ := h g
    refine ⟨_, gone, hbalance.elsewhere heq hjournal
      ((after_attempt s' hlane hstate).2.2 g jobs heq hbalance.resting) (publishedIn_attempt s' g hstate),
      fun hnot => ?_⟩
    obtain ⟨hquiet, hgone, hbatch⟩ := hgood fun hbad => hnot (hgroups g heq hbad)
    obtain ⟨hstarted, hcompleted⟩ := hjournal.elsewhere heq
    rw [hstarted, hcompleted]
    rw [ofGroup_ne heq] at hbatch
    exact ⟨hquiet, hgone, hbatch.trans (List.prefix_append ..)⟩

/-- A message that is not completed holds up its group, whether its command has left the lane or not. -/
theorem InLanes.held (h : InLanes bot otherServices s₀ s (raw :: envelopes)) {leaves : Bool} {schedule : List Move}
    (hschedule : schedule = s.state ++ Fleet.attemptWith raw.groupId script.occurrences leaves)
    (hlane : (after bot otherServices s₀ s.state).lanes raw.groupId = .resting (raw.command :: rest))
    (hown : Balance bot otherServices s₀ (s.start raw schedule) raw.groupId jobs gone) :
    Balanced bot otherServices s₀ (s.start raw schedule) ∧
      ∀ failure, InLanes bot otherServices s₀ ((s.start raw schedule).fail raw failure) envelopes := by
  have hfail (failure : Failure) :
      InLanes bot otherServices s₀ ((s.start raw schedule).fail raw failure) envelopes := by
    have hbad : raw.groupId ∈ s.failedGroups.insert raw.groupId := List.mem_insert_self
    refine h.attempt ⟨rfl, .inl rfl⟩ hschedule (fun g _ hg => List.mem_insert_of_mem hg) hlane
      ⟨jobs, gone, ⟨hown.resting, hown.total, hown.completed, hown.started⟩, fun hnot => absurd hbad hnot⟩
  refine ⟨fun g => ?_, hfail⟩
  obtain ⟨jobs, gone, hbalance⟩ := (hfail (.fault .missingAnswer)).balanced g
  exact ⟨jobs, gone, hbalance.resting, hbalance.total, hbalance.completed, hbalance.started⟩

variable (bot otherServices s₀) in
/-- What an attempt makes of the run, for each of its ends. -/
def Continues (s : WorkerRun (List Move)) (raw : QueueEnvelope) (envelopes : List QueueEnvelope) : Verdict → Prop
  | .completed => InLanes bot otherServices s₀ (s.complete raw) envelopes
  | .failed failure => InLanes bot otherServices s₀ (s.fail raw failure) envelopes
  | .cancelled => Balanced bot otherServices s₀ s

theorem InLanes.attempted (h : InLanes bot otherServices s₀ s (raw :: envelopes)) (hg : raw.groupId ∉ s.failedGroups)
    (script : Script) {verdict : Verdict} {world : World} {schedule : List Move}
    (hattempt : (workerPorts bot otherServices).attempt raw.command script
      (after bot otherServices s₀ s.state).world = (verdict, world))
    (hschedule : schedule =
      s.state ++ Fleet.attemptWith raw.groupId script.occurrences script.deletion.effective) :
    (after bot otherServices s₀ schedule).world = world ∧
      Continues bot otherServices s₀ (s.start raw schedule) raw envelopes verdict := by
  obtain ⟨rest, hbalance, hquiet, hbatch⟩ := h.oldest hg
  obtain ⟨hworld, hlane, -⟩ := after_attempt (s.start raw schedule) hbalance.resting hschedule
  have hadded := publishedIn_attempt (s.start raw schedule) raw.groupId hschedule
  have hheld {jobs gone : List OrderedRegistrationCommand} (hown : Balance bot otherServices s₀
      (s.start raw schedule) raw.groupId jobs gone) := h.held hschedule hbalance.resting hown
  have hworld : (after bot otherServices s₀ schedule).world = _ := hworld
  unfold workerPorts at hattempt
  dsimp only at hattempt
  generalize (process bot otherServices raw.command).resume storage (after bot otherServices s₀ s.state).world
    script.occurrences = left at hattempt hlane hworld
  obtain ⟨p, w⟩ := left
  cases p with
  | call op next =>
    obtain ⟨rfl, rfl⟩ := Prod.mk.inj hattempt
    exact ⟨hworld, (hheld (hbalance.stays rfl rfl hlane hadded)).1⟩
  | fail failure =>
    obtain ⟨rfl, rfl⟩ := Prod.mk.inj hattempt
    exact ⟨hworld, (hheld (hbalance.stays rfl rfl hlane hadded)).2 failure⟩
  | done reply =>
    obtain ⟨rfl, rfl⟩ := Prod.mk.inj hattempt
    refine ⟨hworld, ?_⟩
    cases hdeletion : script.deletion with
    | answered =>
      rw [hdeletion] at hlane hschedule
      have hjournal : Journaled raw s ((s.start raw schedule).complete raw) := ⟨rfl, .inr rfl⟩
      refine h.attempt hjournal hschedule (fun g _ hg => hg) hbalance.resting
        ⟨_, _, hbalance.goes hquiet rfl hjournal hlane hadded, fun _ =>
          ⟨?_, ?_, hbatch.trans (List.prefix_append ..)⟩⟩
      · show ofGroup raw.groupId (s.started ++ [raw]) = ofGroup raw.groupId (s.completed ++ [raw])
        rw [ofGroup_snoc, ofGroup_snoc, hquiet]
      · show _ = (ofGroup raw.groupId (s.completed ++ [raw])).map QueueEnvelope.command
        rw [ofGroup_snoc, List.map_append]
        rfl
    | raised failure effective =>
      rw [hdeletion] at hlane
      cases effective with
      | true => exact (hheld (hbalance.goes hquiet rfl ⟨rfl, .inl rfl⟩ hlane hadded)).2 failure
      | false => exact (hheld (hbalance.stays rfl rfl hlane hadded)).2 failure
    | cancelled effective =>
      rw [hdeletion] at hlane
      cases effective with
      | true => exact (hheld (hbalance.goes hquiet rfl ⟨rfl, .inl rfl⟩ hlane hadded)).1
      | false => exact (hheld (hbalance.stays rfl rfl hlane hadded)).1

/-- The messages of a batch, in the lanes. -/
structure Simulated (bot : Deployment) (otherServices : OtherServices) (s₀ : Plant)
    (inLanes : Bool × WorkerRun (List Move)) (inWorld : Bool × WorkerRun World) : Prop where
  goesOn : inWorld.1 = inLanes.1
  run : inWorld.2 = inLanes.2.withState (after bot otherServices s₀ inLanes.2.state).world
  balanced : Balanced bot otherServices s₀ inLanes.2
  next : inLanes.1 = true → InLanes bot otherServices s₀ inLanes.2 []

theorem handleEnvelopes_simulated (h : InLanes bot otherServices s₀ s envelopes) (scripts : List Script)
    {t : WorkerRun World} (ht : t = s.withState (after bot otherServices s₀ s.state).world) :
    Simulated bot otherServices s₀
      (OrderedWorker.handleEnvelopes (lanePorts bot otherServices s₀) envelopes scripts s)
      (OrderedWorker.handleEnvelopes (workerPorts bot otherServices) envelopes scripts t) := by
  subst ht
  induction envelopes generalizing s scripts with
  | nil => exact ⟨rfl, rfl, h.balanced, fun _ => h⟩
  | cons raw envelopes ih =>
    unfold OrderedWorker.handleEnvelopes
    by_cases hg : raw.groupId ∈ s.failedGroups
    · rw [if_pos hg]
      rw [if_pos (show raw.groupId ∈ (s.withState (after bot otherServices s₀ s.state).world).failedGroups from hg)]
      exact ih (h.skip hg) scripts
    · rw [if_neg hg]
      rw [if_neg (show raw.groupId ∉ (s.withState (after bot otherServices s₀ s.state).world).failedGroups from hg)]
      cases hattempt : (workerPorts bot otherServices).attempt raw.command (scripts.headD {})
          (after bot otherServices s₀ s.state).world with
      | mk verdict world =>
        obtain ⟨rfl, hcontinues⟩ := h.attempted hg (scripts.headD {}) hattempt rfl
        have hlanes : (lanePorts bot otherServices s₀).attempt raw.command (scripts.headD {}) s.state =
            (verdict, s.state ++ Fleet.attemptWith raw.groupId (scripts.headD {}).occurrences
              (scripts.headD {}).deletion.effective) := by
          have hverdict := congrArg Prod.fst hattempt
          exact Prod.ext hverdict rfl
        rw [hlanes]
        rw [show (workerPorts bot otherServices).attempt raw.command (scripts.headD {})
          (s.withState (after bot otherServices s₀ s.state).world).state = _ from hattempt]
        cases verdict with
        | completed => exact ih hcontinues scripts.tail
        | failed failure => exact ih hcontinues scripts.tail
        | cancelled => exact ⟨rfl, rfl, hcontinues, nofun⟩

/-- While the worker waits, the lanes only get new commands. -/
theorem InLanes.meanwhile (h : InLanes bot otherServices s₀ s [])
    (occurrences : List (Occurrence OrderedRegistrationCommand Input World)) :
    (after bot otherServices s₀ (s.state ++ occurrences.filterMap Occurrence.idle?)).world =
        Occurrence.worldAfter (after bot otherServices s₀ s.state).world occurrences ∧
      InLanes bot otherServices s₀ (s.withState (s.state ++ occurrences.filterMap Occurrence.idle?)) [] := by
  constructor
  · obtain ⟨jobs, gone, hbalance, -⟩ := h ""
    rw [after_append]
    exact (Fleet.play_idle hbalance.resting occurrences).1
  · intro g
    obtain ⟨jobs, gone, hbalance, hgood⟩ := h g
    refine ⟨jobs ++ Occurrence.published OrderedRegistrationCommand.queueGroupId g occurrences, gone,
      ⟨?_, ?_, hbalance.completed, hbalance.started⟩, fun hnot => ?_⟩
    · show (after bot otherServices s₀ (s.state ++ occurrences.filterMap Occurrence.idle?)).lanes g = _
      rw [after_append]
      exact (Fleet.play_idle hbalance.resting occurrences).2
    · show _ ++ publishedIn g (s.state ++ occurrences.filterMap Occurrence.idle?) = _
      rw [publishedIn, Fleet.publishedBy_append, Fleet.publishedBy_idle, ← List.append_assoc]
      exact (congrArg (· ++ _) hbalance.total).trans (List.append_assoc ..)
    · obtain ⟨hquiet, hgone, -⟩ := hgood hnot
      exact ⟨hquiet, hgone, List.nil_prefix⟩

/-- A batch that the queue hands out in order. -/
theorem InLanes.receive (h : InLanes bot otherServices s₀ s []) (hunmixed : Unmixed batch)
    (hfifo : ∀ raw ∈ batch, raw.groupId ∉ s.failedGroups → (ofGroup raw.groupId batch).map QueueEnvelope.command <+:
      ((after bot otherServices s₀ s.state).lanes raw.groupId).jobs) :
    InLanes bot otherServices s₀ (s.receive batch) (sortEnvelopes batch) := by
  intro g
  obtain ⟨jobs, gone, hbalance, hgood⟩ := h g
  refine ⟨jobs, gone, ⟨hbalance.resting, hbalance.total, hbalance.completed, hbalance.started⟩,
    fun hnot => ?_⟩
  obtain ⟨hquiet, hgone, -⟩ := hgood hnot
  refine ⟨hquiet, hgone, ?_⟩
  rw [ofGroup_sortEnvelopes hunmixed]
  cases hown : ofGroup g batch with
  | nil => exact List.nil_prefix
  | cons raw others =>
    obtain ⟨hraw, hgroup⟩ := List.mem_filter.mp (hown ▸ List.mem_cons_self : raw ∈ ofGroup g batch)
    obtain rfl := of_decide_eq_true hgroup
    have hoffered := hfifo raw hraw hnot
    rw [hbalance.resting, hown] at hoffered
    exact hoffered

/-- Two runs that take the same course, the second one in the world of the lanes of the first. -/
structure SameCourse (bot : Deployment) (otherServices : OtherServices) (s₀ : Plant)
    (inLanes : Except RunFailure Nat × WorkerRun (List Move)) (inWorld : Except RunFailure Nat × WorkerRun World) :
    Prop where
  outcome : inWorld.1 = inLanes.1
  run : inWorld.2 = inLanes.2.withState (after bot otherServices s₀ inLanes.2.state).world
  balanced : Balanced bot otherServices s₀ inLanes.2

theorem drain_simulated {rounds : List Round} (h : InLanes bot otherServices s₀ s [])
    (hunmixed : Unmixed (rounds.flatMap Round.messages)) (hfifo : Fifo bot otherServices s₀ rounds s)
    {t : WorkerRun World} (ht : t = s.withState (after bot otherServices s₀ s.state).world) :
    SameCourse bot otherServices s₀ (OrderedWorker.drain (lanePorts bot otherServices s₀) rounds s)
      (OrderedWorker.drain (workerPorts bot otherServices) rounds t) := by
  subst ht
  induction rounds generalizing s with
  | nil => exact ⟨rfl, rfl, h.balanced⟩
  | cons round rounds ih =>
    obtain ⟨hworld, hs⟩ := h.meanwhile round.occurrences
    unfold OrderedWorker.drain
    unfold Fifo at hfifo
    rw [List.flatMap_cons] at hunmixed
    dsimp only at hfifo ⊢
    have hstate : (s.withState (after bot otherServices s₀ s.state).world).withState
          ((workerPorts bot otherServices).meanwhile round.occurrences
            (s.withState (after bot otherServices s₀ s.state).world).state) =
        (s.withState ((lanePorts bot otherServices s₀).meanwhile round.occurrences s.state)).withState
          (after bot otherServices s₀ ((lanePorts bot otherServices s₀).meanwhile round.occurrences s.state)).world :=
      congrArg (s.withState ·) hworld.symm
    rw [hstate]
    have hs : InLanes bot otherServices s₀
        (s.withState ((lanePorts bot otherServices s₀).meanwhile round.occurrences s.state)) [] := hs
    generalize hnow : s.withState ((lanePorts bot otherServices s₀).meanwhile round.occurrences s.state) = now at *
    have hnow : (lanePorts bot otherServices s₀).meanwhile round.occurrences s.state = now.state :=
      congrArg WorkerRun.state hnow
    rw [hnow]
    cases hreceived : round.received with
    | cancelled => exact ⟨rfl, rfl, hs.balanced⟩
    | raised failure => exact ⟨rfl, rfl, hs.balanced⟩
    | foreign batch =>
      refine ⟨rfl, rfl, fun g => ?_⟩
      obtain ⟨jobs, gone, hbalance⟩ := hs.balanced g
      exact ⟨jobs, gone, hbalance.resting, hbalance.total, hbalance.completed, hbalance.started⟩
    | envelopes batch =>
      have hmessages : round.messages = batch := by rw [Round.messages, hreceived]
      rw [hmessages] at hunmixed
      rw [hreceived] at hfifo
      obtain ⟨hbatch, hlater⟩ := hfifo
      dsimp only
      by_cases hempty : batch.isEmpty = true
      · rw [if_pos hempty, if_pos hempty]
        exact ⟨rfl, rfl, hs.balanced⟩
      · rw [if_neg hempty, if_neg hempty]
        have hsimulated := handleEnvelopes_simulated
          (hs.receive (hunmixed.subset fun raw => List.mem_append_left _) hbatch) round.scripts
          (t := (now.withState (after bot otherServices s₀ now.state).world).receive batch) rfl
        generalize OrderedWorker.handleEnvelopes (lanePorts bot otherServices s₀) (sortEnvelopes batch) round.scripts
          (now.receive batch) = handled at hsimulated hlater ⊢
        generalize OrderedWorker.handleEnvelopes (workerPorts bot otherServices) (sortEnvelopes batch) round.scripts
          ((now.withState (after bot otherServices s₀ now.state).world).receive batch) = handled' at hsimulated ⊢
        obtain ⟨goesOn, s'⟩ := handled
        obtain ⟨goesOn', t'⟩ := handled'
        obtain rfl : goesOn' = goesOn := hsimulated.goesOn
        obtain rfl : t' = s'.withState (after bot otherServices s₀ s'.state).world := hsimulated.run
        cases goesOn' with
        | false => exact ⟨rfl, rfl, hsimulated.balanced⟩
        | true =>
          exact ih (hsimulated.next rfl) (hunmixed.subset fun raw => List.mem_append_right _) (hlater rfl)

/-- A run of the worker takes the same course in the lanes: every attempt is at the oldest command of its lane,
in whatever state of the world the lanes are by then. A command leaves its lane when its message is deleted,
only after it was started and in the order of the lane, and nothing else is lost or doubled. So the state
that a run leaves is one that the laws of the lanes are about. -/
theorem run_refines (bot : Deployment) (otherServices : OtherServices) (s₀ : Plant) (rounds : List Round)
    (hresting : ∀ g, ∃ jobs, s₀.lanes g = .resting jobs) (hunmixed : Unmixed (rounds.flatMap Round.messages))
    (hfifo : Fifo bot otherServices s₀ rounds { state := [] }) :
    let inLanes := OrderedWorker.run (lanePorts bot otherServices s₀) rounds []
    let s := inLanes.2.1
    OrderedWorker.run (workerPorts bot otherServices) rounds s₀.world =
        (inLanes.1, s.withState (after bot otherServices s₀ s.state).world, inLanes.2.2) ∧
      Balanced bot otherServices s₀ s ∧
      ∀ C s₁, Fleet.Reaches (queue bot otherServices) storage C s₁ s₀ →
        Fleet.Meets (queue bot otherServices) storage C s₀ s.state →
        Fleet.Reaches (queue bot otherServices) storage C s₁ (after bot otherServices s₀ s.state) := by
  have hstart : InLanes bot otherServices s₀ { state := [] } [] := by
    intro g
    obtain ⟨jobs, hjobs⟩ := hresting g
    refine ⟨jobs, [], ⟨hjobs, ?_, List.nil_prefix, List.nil_prefix⟩, fun _ => ⟨rfl, rfl, List.nil_prefix⟩⟩
    rw [hjobs]
    exact List.append_nil jobs
  have hcourse := drain_simulated hstart hunmixed hfifo (t := { state := s₀.world }) rfl
  unfold OrderedWorker.run
  generalize OrderedWorker.drain (lanePorts bot otherServices s₀) rounds { state := [] } = lanes at *
  generalize OrderedWorker.drain (workerPorts bot otherServices) rounds { state := s₀.world } = world at *
  obtain ⟨outcome, s⟩ := lanes
  obtain ⟨outcome', t⟩ := world
  obtain rfl : outcome' = outcome := hcourse.outcome
  obtain rfl : t = s.withState (after bot otherServices s₀ s.state).world := hcourse.run
  exact ⟨rfl, hcourse.balanced, fun C s₁ hs hmeets => hs.play_meets hmeets⟩

end Lanes

/-! ## A run with a failed deletion -/

/-- The message of the first signup cannot be deleted, so the second one waits; the confirmation is refused. -/
def failingRound : Round where
  received := .envelopes [⟨signup 1, "first"⟩, ⟨signup 2, "second"⟩, ⟨confirmation 3, "third"⟩]
  scripts := [
    { occurrences := List.replicate 30 (.answer (goodDay 0)), deletion := .raised (.fault .missingAnswer) false },
    { occurrences := List.replicate 40 (.answer (goodDay 1)), deletion := .answered }]

theorem failingRound_unmixed : Unmixed ([failingRound].flatMap Round.messages) := by
  have hforeground : ∀ raw ∈ [failingRound].flatMap Round.messages, raw.command.operation ≠ .syncProfile := by decide
  exact fun u hu v hv _ => iff_of_false (hforeground u hu) (hforeground v hv)

theorem failingRun_orderly :
    let (outcome, s, released) := OrderedWorker.run (workerPorts sampleBot noServices) [failingRound] answerWorld
    Orderly s ∧
      (∀ receipt, receipt ∈ released ↔
        ∃ raw ∈ s.received, raw.receiptHandle = receipt ∧ raw ∉ s.completed) ∧
      ∀ n, outcome = .ok n → n = s.received.length ∧ s.completed.Perm s.received :=
  run_orderly (workerPorts sampleBot noServices) [failingRound] answerWorld failingRound_unmixed (by decide)

example : (OrderedWorker.run (workerPorts sampleBot noServices) [failingRound] answerWorld).2.2 =
    ["second", "first"] := by
  decide +kernel

/-- The commands of the round wait in their lanes. -/
def waitingPlant : Plant :=
  Fleet.play (queue sampleBot noServices) storage { world := answerWorld }
    (([.publish (signup 1), .publish (signup 2), .publish (confirmation 3)] :
      List (Occurrence OrderedRegistrationCommand Input World)).filterMap Occurrence.idle?)

theorem waitingPlant_resting (g : String) : ∃ jobs, waitingPlant.lanes g = .resting jobs := by
  have hidle : ({ world := answerWorld } : Plant).lanes g = .resting [] := rfl
  exact ⟨_, (Fleet.play_idle hidle
    [.publish (signup 1), .publish (signup 2), .publish (confirmation 3)]).2⟩

theorem failingRun_fifo : Fifo sampleBot noServices waitingPlant [failingRound] { state := [] } :=
  ⟨by decide +kernel, fun _ => trivial⟩

theorem failingRun_refines :
    let inLanes := OrderedWorker.run (lanePorts sampleBot noServices waitingPlant) [failingRound] []
    let s := inLanes.2.1
    OrderedWorker.run (workerPorts sampleBot noServices) [failingRound] waitingPlant.world =
        (inLanes.1, s.withState (after sampleBot noServices waitingPlant s.state).world, inLanes.2.2) ∧
      Balanced sampleBot noServices waitingPlant s ∧
      ∀ C s₁, Fleet.Reaches (queue sampleBot noServices) storage C s₁ waitingPlant →
        Fleet.Meets (queue sampleBot noServices) storage C waitingPlant s.state →
        Fleet.Reaches (queue sampleBot noServices) storage C s₁ (after sampleBot noServices waitingPlant s.state) :=
  run_refines sampleBot noServices waitingPlant [failingRound]
    waitingPlant_resting failingRound_unmixed failingRun_fifo

end LarpBot
