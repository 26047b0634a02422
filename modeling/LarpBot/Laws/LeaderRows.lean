import LarpBot.Laws.Executions

/-!
# The leader rows of an event

A method that is about leaders reads the item of the event and queries its leaders in a second
request, and `_desired` drops the leaders of an event that was not read. Between the two requests the
event may come to be, and its leaders are then read without it: they look as if they belonged to no
event, and the difference deletes them.
-/

namespace LarpBot

open Atomic
open Prog (Traced)

abbrev EventExecution := dynamoEvents.Execution

abbrev EventRun :=
  Fleet EventMethod.EventRequests Fault (Σ m, EventMethod.Ans m) EventExecution Nat EventItems

abbrev EventRecord :=
  Record EventMethod.EventRequests (Σ m, EventMethod.Ans m) EventExecution EventItems

abbrev EventMove :=
  Label EventExecution Nat (Occasion EventDocument EventSearch) EventItems

instance {C : EventRun → EventMove → Prop} [∀ s l, Decidable (C s l)] (s : EventRun)
    (schedule : List EventMove) :
    Decidable (Fleet.Meets dynamoEvents.executions dynamoEvents.perform C s schedule) :=
  Fleet.instDecidableMeets s schedule

/-! ## What is loaded -/

namespace EventMethod

/-- The answers of the tables are about what was asked for. -/
def Fits : (c : EventRequests.Op) → EventRequests.Ans c → Prop
  | .getItem k, answer => ∀ item ∈ answer, item.document.key = k
  | .query eventId, answer => ∀ item ∈ answer, item.document.key.partition = some eventId
  | _, _ => True

/-- The rows that the latest requests of an execution have loaded. -/
def Fetches (m : EventMethod) (made : List EventRequests.Entry) (rows : List (Item EventDocument)) :
    Prop :=
  match m.rows with
  | .search condition => ∃ found rest, made = ⟨.search condition, found⟩ :: rest ∧
      rows = found.filter (·.document.asEvent.isSome)
  | .item eventId false => ∃ event rest, made = ⟨.getItem (.event eventId), event⟩ :: rest ∧
      (∀ item ∈ event, item.document.key = .event eventId) ∧ rows = event.toList
  | .item eventId true => ∃ event leaders rest,
      made = ⟨.query eventId, leaders⟩ :: ⟨.getItem (.event eventId), event⟩ :: rest ∧
      (∀ item ∈ event, item.document.key = .event eventId) ∧
      (∀ item ∈ leaders, item.document.key.partition = some eventId) ∧
      rows = event.toList ++ leaders

theorem traced_rowsForCall (m : EventMethod) (made : List EventRequests.Entry) :
    m.rowsForCall.Traced Fits (fun _ (c : Request _ _ _ _) => c.IsRead) (fun _ _ => True) m.Fetches
      made := by
  unfold rowsForCall Fetches
  generalize m.rows = loaded
  cases loaded with
  | search condition => exact ⟨trivial, fun found _ => ⟨found, made, rfl, rfl⟩⟩
  | item eventId withLeaders =>
    cases withLeaders with
    | false => exact ⟨trivial, fun event hevent => ⟨event, made, rfl, hevent, by simp⟩⟩
    | true =>
      refine ⟨trivial, fun event hevent => ⟨trivial, fun leaders hleaders => ?_⟩⟩
      exact ⟨event, leaders, made, rfl, hevent, hleaders, rfl⟩

/-- The transactions of an execution are worked out from the rows it has just loaded. -/
theorem traced_execution (execution : EventExecution) :
    (dynamoEvents.executions.program execution).Traced Fits
      (dynamoEvents.WorkedOut Fetches execution.method) (fun _ _ => True) (fun _ _ => True) [] := by
  have hexecute : (dynamoEvents.execute execution.method 4).Traced Fits
      (dynamoEvents.WorkedOut Fetches execution.method) (fun _ _ => True) (fun _ _ => True) [] :=
    DynamoRepository.traced_execute (traced_rowsForCall execution.method) 4
  exact hexecute.bind fun _ _ _ => trivial

theorem fits_perform (c : EventRequests.Op) (i : Occasion EventDocument EventSearch)
    (s : EventItems) : Fits c (dynamoEvents.perform c i s).1 := by
  cases c with
  | getItem k => exact fun item hitem => Store.key_of_find? hitem
  | query eventId =>
    intro item hitem
    exact of_decide_eq_true (List.mem_filter.mp hitem).2
  | _ => trivial

/-! ## The reads -/

/-- The methods that only read. -/
def IsRead : EventMethod → Prop
  | of (.get _) | of (.getBySignupToken _) | of (.listPage _ _ _) | getByTelegramChatId _
  | listLeaders _ => True
  | _ => False

variable {m : EventMethod} {now : Time} {memory memory' : EventMemory} {answer : m.Ans}

/-- A read leaves the memory repository as it was loaded. -/
theorem run_of_isRead (hread : m.IsRead) (hrun : m.run now memory = .ok (answer, memory')) :
    memory' = memory := by
  cases m with
  | of c =>
    cases c with
    | get e => exact (Prod.mk.inj (Except.ok.inj hrun)).2.symm
    | getBySignupToken token =>
      simp only [run] at hrun
      split at hrun
      · exact nomatch hrun
      · exact (Prod.mk.inj (Except.ok.inj hrun)).2.symm
    | listPage after archived limit =>
      simp only [run] at hrun
      split at hrun
      · exact nomatch hrun
      · exact (Prod.mk.inj (Except.ok.inj hrun)).2.symm
    | _ => exact hread.elim
  | getByTelegramChatId chatId =>
    simp only [run] at hrun
    split at hrun
    · exact (Prod.mk.inj (Except.ok.inj hrun)).2.symm
    · exact (Prod.mk.inj (Except.ok.inj hrun)).2.symm
    · exact nomatch hrun
  | listLeaders e => exact (Prod.mk.inj (Except.ok.inj hrun)).2.symm
  | _ => exact hread.elim

/-- What was loaded and left alone makes no action. -/
theorem actions_load {original : EventItems} (h : original.Closed) :
    dynamoEvents.actions now original original.load = [] := by
  have hsame (k : EventKey) : (EventItems.desired now original original.load).find? k =
      (original.find? k).map Item.document := EventItems.find?_desired_load h k
  have hdelta := delta_eq_nil hsame
  have hlocks : EventItems.extraActions original (EventItems.desired now original original.load) =
      [] := by
    rw [EventItems.extraActions, List.flatMap_eq_nil_iff]
    exact fun eventId _ => EventItems.lockActions_eq_nil (hsame _)
  show delta original (EventItems.desired now original original.load) ++
    EventItems.extraActions original (EventItems.desired now original original.load) = []
  rw [hdelta, hlocks]
  rfl

theorem mem_original {rows : List (Item EventDocument)} {item : Item EventDocument}
    (h : item ∈ (dynamoEvents.original rows).rows) :
    item ∈ rows ∧ ∀ kind value owner, item.document ≠ .lock kind value owner := by
  obtain ⟨hmem, hrecord⟩ := List.mem_filter.mp (Table.mem_of_mem_ofList h)
  refine ⟨hmem, fun kind value owner hlock => ?_⟩
  rw [hlock] at hrecord
  exact nomatch hrecord

/-- Rows that show no leader without its event. -/
theorem closed_original {rows : List (Item EventDocument)}
    (h : ∀ item ∈ rows, ∀ eventId, item.document.key.partition = some eventId →
      ∃ event ∈ rows, event.document.key = .event eventId) :
    EventItems.Closed (dynamoEvents.original rows) := by
  intro item hitem
  obtain ⟨hmem, hlock⟩ := mem_original hitem
  cases hdocument : item.document with
  | event payload => trivial
  | lock kind value owner => exact absurd hdocument (hlock kind value owner)
  | leader eventId identity createdAt =>
    obtain ⟨event, hevent, hkey⟩ := h item hmem eventId (by rw [hdocument]; rfl)
    have hrecord : event ∈ rows.filter fun item => dynamoEvents.records item.document := by
      refine List.mem_filter.mpr ⟨hevent, ?_⟩
      cases hkind : event.document with
      | lock => rw [hkind] at hkey; exact nomatch hkey
      | _ => rfl
    show ((dynamoEvents.original rows).find? (.event eventId)).isSome
    rw [← hkey]
    exact Table.isSome_find?_ofList hrecord

/-- What a read works out from rows that show no leader without its event. -/
theorem worksOut_of_isRead {rows : List (Item EventDocument)}
    {actions : List (Action EventDocument EventKey)} (hread : m.IsRead)
    (hclosed : EventItems.Closed (dynamoEvents.original rows))
    (hworked : dynamoEvents.worksOut m now rows = .ok (answer, actions)) : actions = [] := by
  obtain ⟨memory, hrun, rfl⟩ := DynamoRepository.worksOut_eq_ok.mp hworked
  rw [run_of_isRead hread hrun]
  exact actions_load hclosed

end EventMethod

/-! ## Runs -/

/-- What a request tells of the item of an event. -/
def eventRead : (c : EventMethod.EventRequests.Op) → EventMethod.EventRequests.Ans c →
    Option (Option (Item EventDocument))
  | .getItem _, answer => some answer
  | _, _ => none

/-- A list of leaders that has just missed the event is not shown leaders of it. -/
def SeesNoPhantom (s : EventRun) : EventMove → Prop
  | .call id _ => ∀ (execution : EventExecution) eventId, s.Calls id execution (.query eventId) →
      execution.method = .listLeaders eventId →
      latestAnswer dynamoEvents.executions execution.id eventRead s.history = some none →
        ∀ identity, s.world.find? (.leader eventId identity) = none
  | _ => True

/-- What the records of a run tell of the reads. -/
def ReadLaw (record : EventRecord) (earlier : List EventRecord) : Prop :=
  match record with
  | .called execution (.query eventId) _ answer _ => execution.method = .listLeaders eventId →
      latestAnswer dynamoEvents.executions execution.id eventRead earlier = some none → answer = []
  | .called execution (.transactWriteItems _) _ _ _ => ¬ execution.method.IsRead
  | _ => True

variable {s₀ s : EventRun}

/-- The rows that a read has loaded show no leader without its event. -/
theorem closed_of_made {execution : EventExecution} {history : List EventRecord}
    {made : List EventMethod.EventRequests.Entry} {rows : List (Item EventDocument)}
    (hread : execution.method.IsRead) (hlaw : Along ReadLaw history)
    (hmade : Made dynamoEvents.executions execution history made)
    (hfetched : execution.method.Fetches made rows) : EventItems.Closed (dynamoEvents.original rows) := by
  refine EventMethod.closed_original fun item hitem eventId hpartition => ?_
  unfold EventMethod.Fetches at hfetched
  split at hfetched
  · -- a scan or an index shows events
    obtain ⟨found, rest, -, rfl⟩ := hfetched
    have hevent := (List.mem_filter.mp hitem).2
    cases hdocument : item.document with
    | event => rw [hdocument] at hpartition; exact nomatch hpartition
    | lock | leader => rw [hdocument] at hevent; exact nomatch hevent
  · obtain ⟨event, rest, -, hkey, rfl⟩ := hfetched
    have hsame := hkey item (Option.mem_toList.mp hitem)
    rw [hsame] at hpartition
    exact nomatch hpartition
  · next eventId' hrows =>
    obtain ⟨event, leaders, rest, rfl, hkey, hleaders, rfl⟩ := hfetched
    cases event with
    | some event =>
      refine ⟨event, List.mem_append_left _ (by simp), ?_⟩
      rcases List.mem_append.mp hitem with hevent | hleader
      · have hsame := hkey item (Option.mem_toList.mp hevent)
        rw [hsame] at hpartition
        exact nomatch hpartition
      · rw [← Option.some.inj ((hleaders item hleader).symm.trans hpartition)]
        exact hkey event rfl
    | none =>
      -- the event was missed, and so were its leaders
      have hmethod : execution.method = .listLeaders eventId' := by
        cases hm : execution.method with
        | listLeaders e =>
          rw [hm] at hrows
          exact congrArg _ (EventRows.item.inj hrows).1
        | of c =>
          rw [hm] at hread hrows
          cases c <;> first | exact hread.elim | exact nomatch hrows
        | getByTelegramChatId => rw [hm] at hrows; exact nomatch hrows
        | _ => rw [hm] at hread; exact hread.elim
      obtain ⟨before, after, earlier, ⟨later, rfl⟩, hearlier⟩ := hmade.cons
      have hmissed : latestAnswer dynamoEvents.executions _ eventRead _ = some none :=
        hearlier.latestAnswer_eq rfl
      have hnone : leaders = [] := hlaw.at hmethod hmissed
      rw [hnone] at hitem
      exact absurd hitem List.not_mem_nil

theorem readLaw_reached
    (hs : Fleet.Reaches dynamoEvents.executions dynamoEvents.perform SeesNoPhantom s₀ s)
    (hidle : s₀.Idle) (hnew : s₀.history = []) : Along ReadLaw s.history := by
  refine (hs.trace_rule (A := EventMethod.Fits)
    (T := fun execution => dynamoEvents.WorkedOut EventMethod.Fetches execution.method)
    (X := fun _ _ _ => True) (Q := fun _ _ _ => True) (K := fun _ _ => True)
    (fun history _ => Along ReadLaw history) hidle ?_ ?_ ?_ ?_ ?_ ?_ ?_ ?_).1
  · rw [hnew]
    trivial
  · exact EventMethod.traced_execution
  · exact fun _ _ _ _ => trivial
  · exact fun _ _ _ _ => trivial
  · exact fun _ _ _ hlaw => hlaw
  · exact fun s id i c _ _ => EventMethod.fits_perform c i s.world
  · intro s id i execution c made hC hcalls _ hmade hworked hlaw
    refine ⟨?_, hlaw⟩
    cases c with
    | query eventId =>
      intro hmethod hmissed
      rw [List.eq_nil_iff_forall_not_mem]
      intro item hitem
      obtain ⟨hstored, hpartition⟩ := List.mem_filter.mp hitem
      have hpartition := of_decide_eq_true hpartition
      cases hdocument : item.document with
      | leader eventId' identity createdAt =>
        rw [hdocument] at hpartition
        obtain rfl : eventId' = eventId := Option.some.inj hpartition
        have hnone := hC execution eventId' hcalls hmethod hmissed identity
        have hkey : item.document.key = .leader eventId' identity := by rw [hdocument]; rfl
        rw [← hkey, Table.find?_key hstored] at hnone
        exact nomatch hnone
      | event | lock => rw [hdocument] at hpartition; exact nomatch hpartition
    | transactWriteItems actions =>
      intro hread
      obtain ⟨now, rows, rest, answer, rfl, hfetched, hworked, hsome⟩ := hworked
      obtain ⟨before, after, earlier, hsuffix, hearlier⟩ := hmade.cons
      have hclosed := closed_of_made hread (hlaw.suffix ((List.suffix_cons _ _).trans hsuffix))
        hearlier hfetched
      exact hsome (EventMethod.worksOut_of_isRead hread hclosed hworked)
    | _ => trivial
  · exact fun s id execution value made _ _ _ _ _ hlaw => ⟨trivial, hlaw⟩

/-- In every run in which no list of leaders is shown leaders of an event that it has just missed,
whatever else is executed at the same time, the methods that only read commit nothing. -/
theorem reads_commit_nothing
    (hs : Fleet.Reaches dynamoEvents.executions dynamoEvents.perform SeesNoPhantom s₀ s)
    (hidle : s₀.Idle) (hnew : s₀.history = []) {execution : EventExecution}
    {actions : List (Action EventDocument EventKey)} {before after : EventItems} {outcome : Outcome}
    (hrecord : .called (S := EventMethod.EventRequests) execution (.transactWriteItems actions)
      before outcome after ∈ s.history) : ¬ execution.method.IsRead := by
  have hlaw := readLaw_reached hs hidle hnew
  obtain ⟨later, earlier, hhistory⟩ := List.append_of_mem hrecord
  rw [hhistory] at hlaw
  exact hlaw.at

/-! ### A list of leaders beside a creation -/

section Samples

def sampleGame : Event where
  eventId := "game"
  name := "Игра"

def sampleMaster : BotIdentity :=
  ⟨.telegram, 1⟩

def creation : EventExecution :=
  ⟨1, .create sampleGame [sampleMaster]⟩

def listing : EventExecution :=
  ⟨2, .listLeaders "game"⟩

/-- Indexes that show nothing. -/
def calm : Occasion EventDocument EventSearch where
  found := fun _ => []

def emptyTables : EventRun where
  world := Table.empty

/-- Up to `n` requests of an execution. -/
def requestsOf (execution : EventExecution) (n : Nat) : List EventMove :=
  List.replicate n (.call execution.id calm)

/-- The game is created, and then its leaders are listed. -/
def listedRun : EventRun :=
  emptyTables.play dynamoEvents.executions dynamoEvents.perform
    ([.publish creation, .start 1] ++ requestsOf creation 3 ++ [.finish 1, .publish listing, .start 2] ++
      requestsOf listing 3 ++ [.finish 2])

/-- The step passes the condition on the reads, as far as it can be read off a run. -/
def seesNoPhantom (s : EventRun) : EventMove → Bool
  | .call id _ => match s.pending id with
    | some (execution, .query eventId) =>
      latestAnswer dynamoEvents.executions execution.id eventRead s.history ≠ some none ||
        s.world.rows.all fun item => item.document.key.partition ≠ some eventId
    | _ => true
  | _ => true

theorem seesNoPhantom_of_check {s : EventRun} {l : EventMove} (h : seesNoPhantom s l = true) :
    SeesNoPhantom s l := by
  cases l with
  | call id i =>
    intro execution eventId hcalls _ hmissed identity
    rw [seesNoPhantom, hcalls.pending] at h
    simp only [hmissed, ne_eq, not_true_eq_false, decide_false, Bool.false_or,
      List.all_eq_true, decide_eq_true_eq] at h
    cases hfound : s.world.find? (.leader eventId identity) with
    | none => rfl
    | some item =>
      have hkey : item.document.key = .leader eventId identity := Store.key_of_find? hfound
      exact absurd (by rw [hkey]; rfl) (h item (Table.mem_of_find? hfound))
  | _ => trivial

/-- A record of a transaction of an execution. -/
def commitsOf (id : Nat) : EventRecord → Bool
  | .called execution (.transactWriteItems _) _ _ _ => execution.id = id
  | _ => false

theorem listedRun_commits : ∃ (execution : EventExecution)
    (actions : List (Action EventDocument EventKey)) (before after : EventItems) (outcome : Outcome),
    Record.called (S := EventMethod.EventRequests) execution (.transactWriteItems actions) before
      outcome after ∈ listedRun.history ∧ execution.id = 1 ∧ ¬ execution.method.IsRead := by
  have hcommits : listedRun.history.any (commitsOf 1) = true := by decide +kernel
  have hreached : Fleet.Reaches dynamoEvents.executions dynamoEvents.perform SeesNoPhantom
      emptyTables listedRun := by
    have hcheck : Fleet.Meets dynamoEvents.executions dynamoEvents.perform
        (fun s l => seesNoPhantom s l = true) emptyTables
        ([.publish creation, .start 1] ++ requestsOf creation 3 ++
          [.finish 1, .publish listing, .start 2] ++ requestsOf listing 3 ++ [.finish 2]) := by
      decide +kernel
    exact (Fleet.Reaches.refl.play_meets hcheck).mono fun s l h => seesNoPhantom_of_check h
  generalize listedRun = s at hcommits hreached ⊢
  obtain ⟨record, hrecord, hcommit⟩ := List.any_eq_true.mp hcommits
  unfold commitsOf at hcommit
  split at hcommit
  · next execution actions before outcome after =>
    exact ⟨execution, actions, before, after, outcome, hrecord, of_decide_eq_true hcommit,
      reads_commit_nothing hreached (fun _ => rfl) rfl hrecord⟩
  · exact nomatch hcommit

/-- The listing misses the game, which is then created, and sees its leaders. -/
def phantomRun : EventRun :=
  emptyTables.play dynamoEvents.executions dynamoEvents.perform
    ([.publish creation, .publish listing, .start 2] ++ requestsOf listing 1 ++ [.start 1] ++
      requestsOf creation 3 ++ [.finish 1] ++ requestsOf listing 3 ++ [.finish 2])

/-- A record of a committed transaction of a read that takes the master off the game. -/
def dropsMaster : EventRecord → Bool
  | .called execution (.transactWriteItems _) before outcome after =>
    (match execution.method with | .listLeaders "game" => true | _ => false) &&
    outcome = .committed && (before.find? (.event "game")).isSome &&
    (before.find? (.leader "game" sampleMaster)).isSome &&
    (after.find? (.event "game")).isSome && (after.find? (.leader "game" sampleMaster)).isNone
  | _ => false

theorem phantomRun_drops : ∃ (s₀ s : EventRun) (execution : EventExecution)
    (actions : List (Action EventDocument EventKey)) (before after : EventItems),
    Fleet.Reaches dynamoEvents.executions dynamoEvents.perform (fun _ _ => True) s₀ s ∧ s₀.Idle ∧
    s₀.history = [] ∧ s₀.world = Table.empty ∧
    Record.called (S := EventMethod.EventRequests) execution (.transactWriteItems actions) before
      Outcome.committed after ∈ s.history ∧ execution.method = .listLeaders "game" ∧
    execution.method.IsRead ∧ (before.find? (.leader "game" sampleMaster)).isSome ∧
    (after.find? (.event "game")).isSome ∧ after.find? (.leader "game" sampleMaster) = none := by
  have hdrops : phantomRun.history.any dropsMaster = true := by decide +kernel
  have hreached : Fleet.Reaches dynamoEvents.executions dynamoEvents.perform (fun _ _ => True)
      emptyTables phantomRun :=
    Fleet.Reaches.refl.play fun _ _ _ => trivial
  generalize phantomRun = s at hdrops hreached
  obtain ⟨record, hrecord, hdrop⟩ := List.any_eq_true.mp hdrops
  unfold dropsMaster at hdrop
  split at hdrop
  · next execution actions before outcome after =>
    simp only [Bool.and_eq_true, decide_eq_true_eq, Option.isNone_iff_eq_none] at hdrop
    obtain ⟨⟨⟨⟨⟨hmethod, rfl⟩, -⟩, hbefore⟩, hafter⟩, hdropped⟩ := hdrop
    have hlists : execution.method = .listLeaders "game" := by
      split at hmethod
      · next hsame => exact hsame
      · cases hmethod
    refine ⟨emptyTables, s, execution, actions, before, after, hreached, fun _ => rfl, rfl, rfl,
      hrecord, hlists, ?_, hbefore, hafter, hdropped⟩
    rw [hlists]
    trivial
  · cases hdrop

end Samples

end LarpBot
