import LarpBot.Adapters.DynamoEvents

/-!
# Executions on DynamoDB

What an execution has behind it when it hands in a transaction: it has just loaded the rows of its
call and looked at the clock, and the actions are what it works out from these rows. What others do
between the load and the transaction is not in the rows.
-/

namespace LarpBot

open Atomic
open Prog (Traced)

/-- The requests that change nothing. -/
def Request.IsRead {D K P X : Type} : Request D K P X → Prop
  | .transactWriteItems _ => False
  | _ => True

namespace DynamoRepository

section Pipeline

variable {D K P X : Type} [DecidableEq D] [DecidableEq K] (R : DynamoRepository D K P X)
  (fetches : R.Method → List (requests D K P X).Entry → List (Item D) → Prop)

/-- A transaction is what the method works out from the rows it has just loaded; `fetches` says which
requests load them. -/
def WorkedOut (m : R.Method) (made : List (requests D K P X).Entry) (c : Request D K P X) : Prop :=
  match c with
  | .transactWriteItems actions => ∃ now rows rest answer, made = ⟨.now, now⟩ :: rest ∧
      fetches m rest rows ∧ R.worksOut m now rows = .ok (answer, actions) ∧ actions ≠ []
  | _ => True

variable {R fetches} {m : R.Method} {A : (c : Request D K P X) → c.Ans → Prop}
  {made : List (requests D K P X).Entry}

theorem workedOut_of_isRead {c : Request D K P X} (hc : c.IsRead) :
    R.WorkedOut fetches m made c := by
  cases c with
  | transactWriteItems actions => exact hc.elim
  | _ => trivial

/-- Every attempt of an execution loads anew. -/
theorem traced_execute
    (hrows : ∀ made, (R.rowsForCall m).Traced A (fun _ (c : Request D K P X) => c.IsRead)
      (fun _ _ => True) (fetches m) made) (attempts : Nat) :
    (R.execute m attempts).Traced A (R.WorkedOut fetches m) (fun _ _ => True) (fun _ _ => True)
      made := by
  induction attempts generalizing made with
  | zero => trivial
  | succ attempts ih =>
    have hload : (R.rowsForCall m).Traced A (R.WorkedOut fetches m) (fun _ _ => True) (fetches m)
        made :=
      (hrows made).mono (fun _ _ => workedOut_of_isRead) (fun _ _ h => h) fun _ _ h => h
    refine hload.bind fun made' rows hfetched => ⟨trivial, fun now _ => ?_⟩
    dsimp only [Prog.bind_eq, Prog.done_bind]
    cases hworked : R.worksOut m now rows with
    | error fault => trivial
    | ok worked =>
      obtain ⟨answer, actions⟩ := worked
      dsimp only
      split
      · trivial
      · next hsome =>
        split
        · trivial
        · have hactions : actions ≠ [] := fun hnone => hsome (List.isEmpty_iff.mpr hnone)
          refine ⟨⟨now, rows, made', answer, rfl, hfetched, hworked, hactions⟩, fun outcome _ => ?_⟩
          cases outcome with
          | committed => trivial
          | failed => trivial
          | cancelled =>
            dsimp only
            split
            · trivial
            · exact ih

end Pipeline

/-! ## An execution alone -/

section Alone

variable {D K P X : Type} [DecidableEq D] [DecidableEq K] [DecidableEq P]
  (R : DynamoRepository D K P X)

/-- The tables as the handler of a program. -/
@[reducible] def service : Handler (requests D K P X) (Store R.key) (Occasion D X) :=
  fun c i s => R.perform c i s

/-- What remains of the occasions after `n` requests. -/
def later (occasions : Nat → Occasion D X) (n : Nat) : Nat → Occasion D X :=
  fun k => occasions (n + k)

/-- The program returns `a` in these tables, whenever it starts, and leaves them as they are. -/
def Reads {α : Type} (p : Prog (requests D K P X) Fault α) (s : Store R.key) (a : α) : Prop :=
  ∀ occasions, ∃ n, p.run R.service occasions s = (.ok a, later occasions n, s)

/-- The load of a method shows these rows of the tables. -/
def Loads (m : R.Method) (s : Store R.key) (rows : List (Item D)) : Prop :=
  R.Reads (R.rowsForCall m) s rows

/-- The service takes every transaction whose guards hold. -/
def Serves (occasions : Nat → Occasion D X) : Prop :=
  ∀ n, (occasions n).verdict = .committed

/-- The execution returns, whenever it starts. -/
def Commits (m : R.Method) (s : Store R.key) : Prop :=
  ∀ occasions, Serves occasions →
    ∃ answer, ((R.execute m 4).run R.service occasions s).1 = .ok answer

variable {R} {m : R.Method} {s s' : Store R.key} {rows : List (Item D)}
  {occasions : Nat → Occasion D X} {answer : R.Ans m} {actions : List (Action D K)}

section Reads

variable {α β : Type} {p : Prog (requests D K P X) Fault α} {a : α}

theorem reads_done : R.Reads (.done a) s a := by
  intro occasions
  have hsame : later occasions 0 = occasions := funext fun k => congrArg occasions (Nat.zero_add k)
  exact ⟨0, by rw [hsame]; rfl⟩

theorem Reads.bind {f : α → Prog (requests D K P X) Fault β} {b : β} (hp : R.Reads p s a)
    (hf : R.Reads (f a) s b) : R.Reads (p.bind f) s b := by
  intro occasions
  obtain ⟨n, hfirst⟩ := hp occasions
  obtain ⟨n', hrest⟩ := hf (later occasions n)
  have hsame : later (later occasions n) n' = later occasions (n + n') :=
    funext fun k => congrArg occasions (Nat.add_assoc n n' k).symm
  exact ⟨n + n', by rw [Prog.run_bind hfirst, hrest, hsame]⟩

theorem reads_call {c : Request D K P X} {answer : c.Ans}
    (h : ∀ i, R.perform c i s = (answer, s)) :
    R.Reads (Prog.ofCall (S := requests D K P X) c) s answer := by
  intro occasions
  have hsame : later occasions 1 = fun k => occasions (k + 1) :=
    funext fun k => congrArg occasions (Nat.add_comm 1 k)
  refine ⟨1, ?_⟩
  rw [hsame]
  simp only [Prog.ofCall, Prog.run, service, h]

theorem Reads.traverse {f : α → Prog (requests D K P X) Fault β} {g : α → β} {as : List α}
    (h : ∀ a ∈ as, R.Reads (f a) s (g a)) : R.Reads (Prog.traverse f as) s (as.map g) := by
  induction as with
  | nil => exact reads_done
  | cons a as ih =>
    refine (h a List.mem_cons_self).bind ?_
    exact (ih fun a' ha' => h a' (List.mem_cons_of_mem a ha')).bind reads_done

end Reads

/-- An attempt goes on from what it has loaded, at the instant of its clock. -/
theorem run_execute (hload : R.Loads m s rows) (attempts : Nat) :
    ∃ n, (R.execute m (attempts + 1)).run R.service occasions s =
      (Prog.run (ε := Fault) R.service (match R.worksOut m (occasions n).now rows with
        | .error fault => throw fault
        | .ok (answer, actions) =>
          if actions.isEmpty then return answer
          else if maxTransactionActions < actions.length then throw (tooManyActions actions.length)
          else do
            match ← Prog.ofCall (S := requests D K P X) (.transactWriteItems actions) with
            | .committed => return answer
            | .cancelled => if attempts = 0 then throw clientError else R.execute m attempts
            | .failed => throw clientError) (fun k => later occasions n (k + 1)) s) := by
  obtain ⟨n, hrows⟩ := hload occasions
  refine ⟨n, ?_⟩
  rw [execute, Prog.bind_eq, Prog.run_bind hrows]
  rfl

/-- Actions that are too many raise. -/
theorem run_execute_tooMany (hload : R.Loads m s rows)
    (hworked : ∀ now, ∃ answer actions, R.worksOut m now rows = .ok (answer, actions) ∧
      maxTransactionActions < actions.length) (attempts : Nat) :
    ∃ n, ((R.execute m (attempts + 1)).run R.service occasions s).1 = .error (tooManyActions n) := by
  obtain ⟨n, hrun⟩ := run_execute hload attempts
  obtain ⟨answer, actions, hworked, hmany⟩ := hworked (occasions n).now
  have hsome : ¬ actions.isEmpty = true := by
    intro hnone
    rw [List.isEmpty_iff.mp hnone] at hmany
    exact absurd hmany (Nat.not_lt_zero _)
  refine ⟨actions.length, ?_⟩
  rw [hrun, hworked]
  dsimp only
  rw [if_neg hsome, if_pos hmany]
  rfl

/-- Actions that are not too many, and whose guards hold, are carried out. -/
theorem run_execute_committed (hload : R.Loads m s rows) (hserves : Serves occasions)
    (hworked : ∀ n, ∃ answer actions, R.worksOut m (occasions n).now rows = .ok (answer, actions) ∧
      actions.length ≤ maxTransactionActions ∧ Committed actions s (applyAll actions s))
    (attempts : Nat) :
    ∃ n answer actions rest, R.worksOut m (occasions n).now rows = .ok (answer, actions) ∧
      (R.execute m (attempts + 1)).run R.service occasions s =
        (.ok answer, rest, applyAll actions s) := by
  obtain ⟨n, hrun⟩ := run_execute hload attempts
  obtain ⟨answer, actions, hworked, hfew, hcommitted⟩ := hworked n
  have houtcome : R.service (.transactWriteItems actions) (occasions (n + 1)) s =
      (.committed, applyAll actions s) := by
    simp only [service, perform, hserves (n + 1), transact_of_committed hcommitted]
  by_cases hnone : actions.isEmpty = true
  · refine ⟨n, answer, actions, fun k => later occasions n (k + 1), hworked, ?_⟩
    rw [hrun, hworked]
    dsimp only
    rw [if_pos hnone, List.isEmpty_iff.mp hnone]
    rfl
  · refine ⟨n, answer, actions, fun k => later occasions n (k + 1 + 1), hworked, ?_⟩
    rw [hrun, hworked]
    dsimp only
    rw [if_neg hnone, if_neg (Nat.not_lt.mpr hfew)]
    show Prog.run (ε := Fault) R.service
      (match (R.service (.transactWriteItems actions) (occasions (n + 1)) s).1 with
        | .committed => return answer
        | .cancelled => if attempts = 0 then throw clientError else R.execute m attempts
        | .failed => throw clientError) _
      (R.service (.transactWriteItems actions) (occasions (n + 1)) s).2 = _
    rw [houtcome]
    rfl

/-- Actions whose guards do not hold are refused each time. -/
theorem run_execute_refused (hload : R.Loads m s rows) (hserves : Serves occasions)
    (hworked : ∀ now, ∃ answer actions, R.worksOut m now rows = .ok (answer, actions) ∧
      actions ≠ [] ∧ (transact actions s).1 ≠ .committed) (attempts : Nat) :
    ∃ fault, ((R.execute m attempts).run R.service occasions s).1 = .error fault := by
  induction attempts generalizing occasions with
  | zero => exact ⟨.assertionError, rfl⟩
  | succ attempts ih =>
    obtain ⟨n, hrun⟩ := run_execute hload attempts
    obtain ⟨answer, actions, hworked, hsome, htransact⟩ := hworked (occasions n).now
    rw [hrun, hworked]
    dsimp only
    rw [if_neg (fun h => hsome (List.isEmpty_iff.mp h))]
    split
    · exact ⟨_, rfl⟩
    · have hanswer : R.service (.transactWriteItems actions) (occasions (n + 1)) s =
          transact actions s := by
        simp only [service, perform, hserves (n + 1)]
      show ∃ fault, (Prog.run (ε := Fault) R.service
        (match (R.service (.transactWriteItems actions) (occasions (n + 1)) s).1 with
          | .committed => return answer
          | .cancelled => if attempts = 0 then throw clientError else R.execute m attempts
          | .failed => throw clientError) _
        (R.service (.transactWriteItems actions) (occasions (n + 1)) s).2).1 = _
      have hsame : (transact actions s).2 = s := transact_of_refused htransact
      rw [hanswer, hsame]
      cases houtcome : (transact actions s).1 with
      | committed => exact absurd houtcome htransact
      | failed => exact ⟨_, rfl⟩
      | cancelled =>
        dsimp only
        split
        · exact ⟨_, rfl⟩
        · exact ih fun k => hserves _

/-- A method that raises before it has worked out its actions does not return. -/
theorem not_commits_of_raised (hload : R.Loads m s rows)
    (hraised : ∀ now, ∃ fault, R.worksOut m now rows = .error fault) : ¬ R.Commits m s := by
  intro hcommits
  let occasions : Nat → Occasion D X := fun _ => { found := fun _ => [] }
  obtain ⟨answer, hanswer⟩ := hcommits occasions fun _ => rfl
  obtain ⟨n, hrun⟩ := (run_execute hload 3 : ∃ n, (R.execute m 4).run R.service occasions s = _)
  obtain ⟨fault, hfault⟩ := hraised (occasions n).now
  rw [hrun, hfault] at hanswer
  cases hanswer

/-- Where the guards hold, an execution returns exactly if its actions are not too many. -/
theorem commits_iff {size : Nat} (hload : R.Loads m s rows)
    (hworked : ∀ now, ∃ answer actions, R.worksOut m now rows = .ok (answer, actions) ∧
      actions.length = size ∧ Committed actions s (applyAll actions s)) :
    R.Commits m s ↔ size ≤ maxTransactionActions := by
  constructor
  · intro hcommits
    by_contra hmany
    obtain ⟨answer, hanswer⟩ := hcommits (fun _ => { found := fun _ => [] }) fun _ => rfl
    obtain ⟨n, hraised⟩ := run_execute_tooMany hload (fun now => by
      obtain ⟨answer, actions, hactions, hsize, -⟩ := hworked now
      exact ⟨answer, actions, hactions, hsize ▸ Nat.not_le.mp hmany⟩) 3
    rw [hraised] at hanswer
    exact nomatch hanswer
  · intro hfew occasions hserves
    have hcommitted := run_execute_committed hload hserves (fun n => by
      obtain ⟨answer, actions, hactions, hsize, hcommitted⟩ := hworked (occasions n).now
      exact ⟨answer, actions, hactions, hsize ▸ hfew, hcommitted⟩) 3
    obtain ⟨n, answer, actions, rest, -, hrun⟩ := hcommitted
    exact ⟨answer, by rw [hrun]⟩

/-! ### The rows of the tables -/

omit [DecidableEq D] [DecidableEq P] in
/-- Items of the tables are loaded as they are. -/
theorem mem_original {item : Item D} (hrows : ∀ item ∈ rows, item ∈ s.rows) :
    item ∈ (R.original rows).rows ↔ item ∈ rows ∧ R.records item.document = true := by
  constructor
  · intro hmem
    exact List.mem_filter.mp (Table.mem_of_mem_ofList hmem)
  · intro hboth
    have hmem : item ∈ rows.filter fun item => R.records item.document := List.mem_filter.mpr hboth
    have hsome : ((R.original rows).find? (R.key item.document)).isSome :=
      Table.isSome_find?_ofList hmem
    obtain ⟨found, hfound⟩ := Option.isSome_iff_exists.mp hsome
    have hloaded := Table.mem_of_find? hfound
    have hstored := hrows found (List.mem_filter.mp (Table.mem_of_mem_ofList hloaded)).1
    have hkey : R.key found.document = R.key item.document := Store.key_of_find? hfound
    rwa [Table.eq_of_key_eq hstored (hrows item hboth.1) hkey] at hloaded

omit [DecidableEq D] [DecidableEq P] in
/-- Where every row was loaded that the method wants stored, the difference fits the tables. -/
theorem upToDate_original {desired : Table R.key} (hrows : ∀ item ∈ rows, item ∈ s.rows)
    (hloaded : ∀ document ∈ desired.rows, (R.original rows).find? (R.key document) = none →
      s.find? (R.key document) = none) : UpToDate (R.original rows) desired s :=
  ⟨fun _ hitem => Table.find?_key (hrows _ ((mem_original hrows).mp hitem).1), hloaded⟩

end Alone

end DynamoRepository

end LarpBot
