import LarpBot.Foundation.Program

/-!
# Redelivery

Jobs wait in lanes, one lane for each group, and a lane works on its oldest job only. A job leaves
its lane when its program has returned. An attempt that fails, or is cut off at any point, leaves
the job where it is, and the next attempt starts the program again. The lanes make their calls one
at a time in any order, and the rest of the world moves in between: what a job finds at its second
attempt is what all others have made of the world since its first.

`Fleet` is this system with the history of its calls. `Reaches` are its runs under a condition on
each step, and `Reaches.rule` is their induction: an invariant of the world, a law of every record,
and a test that what is left of each attempt passes.
-/

namespace Atomic

/-- The jobs of one group, oldest first: all of them wait, or the first one is being attempted. -/
inductive Lane (S : Signature) (ε α J : Type) where
  | resting (jobs : List J)
  | working (job : J) (attempt : Prog S ε α) (rest : List J)

/-- What the history keeps: each call with the world before and after it, and each return. -/
inductive Record (S : Signature) (α J W : Type) where
  | called (job : J) (op : S.Op) (before : W) (answer : S.Ans op) (after : W)
  | finished (job : J) (value : α)

/-- The lanes over one world. The history has the latest record first. -/
structure Fleet (S : Signature) (ε α J G W : Type) where
  world : W
  lanes : G → Lane S ε α J := fun _ => .resting []
  history : List (Record S α J W) := []

inductive Label (J G I W : Type) where
  | publish (job : J)
  | outside (world : W)
  | start (lane : G)
  | call (lane : G) (input : I)
  | finish (lane : G)
  | abandon (lane : G)

/-- What the jobs are: the program of each, and the lane that it waits in. -/
structure Jobs (S : Signature) (ε α J G : Type) where
  program : J → Prog S ε α
  group : J → G

variable {S : Signature} {ε α J G I W : Type}

def Lane.jobs : Lane S ε α J → List J
  | resting jobs => jobs
  | working job _ rest => job :: rest

/-- A new job goes behind the others. -/
def Lane.add (job : J) : Lane S ε α J → Lane S ε α J
  | resting jobs => resting (jobs ++ [job])
  | working first attempt rest => working first attempt (rest ++ [job])

@[simp] theorem Lane.jobs_add (job : J) (lane : Lane S ε α J) :
    (lane.add job).jobs = lane.jobs ++ [job] := by
  cases lane <;> rfl

def Record.job : Record S α J W → J
  | called job _ _ _ _ => job
  | finished job _ => job

/-! ## Steps -/

namespace Fleet

variable [DecidableEq G]

/-- One step. A label that is not enabled does nothing. -/
def step (jobs : Jobs S ε α J G) (h : Handler S W I) (s : Fleet S ε α J G W) :
    Label J G I W → Fleet S ε α J G W
  | .publish job =>
    let g := jobs.group job
    { s with lanes := Function.update s.lanes g ((s.lanes g).add job) }
  | .outside world => { s with world := world }
  | .start g => match s.lanes g with
    | .resting (job :: rest) =>
      { s with lanes := Function.update s.lanes g (.working job (jobs.program job) rest) }
    | _ => s
  | .call g i => match s.lanes g with
    | .working job (.call op next) rest =>
      let result := h op i s.world
      { world := result.2
        lanes := Function.update s.lanes g (.working job (next result.1) rest)
        history := .called job op s.world result.1 result.2 :: s.history }
    | _ => s
  | .finish g => match s.lanes g with
    | .working job (.done a) rest =>
      { s with
        lanes := Function.update s.lanes g (.resting rest)
        history := .finished job a :: s.history }
    | _ => s
  -- a failure, a deadline, a crash: the job stays the oldest of its lane
  | .abandon g => match s.lanes g with
    | .working job _ rest =>
      { s with lanes := Function.update s.lanes g (.resting (job :: rest)) }
    | _ => s

/-- The next step of a lane is a call of its oldest job. -/
def Calls (s : Fleet S ε α J G W) (g : G) (job : J) (op : S.Op) : Prop :=
  ∃ next rest, s.lanes g = .working job (.call op next) rest

/-- The next call of a lane, with its job. -/
def pending (s : Fleet S ε α J G W) (g : G) : Option (J × S.Op) :=
  match s.lanes g with
  | .working job (.call op _) _ => some (job, op)
  | _ => none

omit [DecidableEq G] in
theorem Calls.pending {s : Fleet S ε α J G W} {g : G} {job : J} {op : S.Op}
    (h : s.Calls g job op) : s.pending g = some (job, op) := by
  obtain ⟨next, rest, hlane⟩ := h
  rw [Fleet.pending, hlane]

/-- The oldest job of a lane has returned, and is about to leave. -/
def Returns (s : Fleet S ε α J G W) (g : G) (job : J) (a : α) : Prop :=
  ∃ rest, s.lanes g = .working job (.done a) rest

/-- The runs whose every step meets a condition. -/
inductive Reaches (jobs : Jobs S ε α J G) (h : Handler S W I)
    (C : Fleet S ε α J G W → Label J G I W → Prop) (s₀ : Fleet S ε α J G W) :
    Fleet S ε α J G W → Prop
  | refl : Reaches jobs h C s₀ s₀
  | step {s : Fleet S ε α J G W} {l : Label J G I W} (hs : Reaches jobs h C s₀ s) (hl : C s l) :
    Reaches jobs h C s₀ (s.step jobs h l)

/-- A schedule played from a fleet. -/
def play (jobs : Jobs S ε α J G) (h : Handler S W I) (s : Fleet S ε α J G W)
    (schedule : List (Label J G I W)) : Fleet S ε α J G W :=
  schedule.foldl (step jobs h) s

/-- Every step of a schedule meets a condition. -/
def Meets (jobs : Jobs S ε α J G) (h : Handler S W I)
    (C : Fleet S ε α J G W → Label J G I W → Prop) :
    Fleet S ε α J G W → List (Label J G I W) → Prop
  | _, [] => True
  | s, l :: schedule => C s l ∧ Meets jobs h C (s.step jobs h l) schedule

instance {jobs : Jobs S ε α J G} {h : Handler S W I}
    {C : Fleet S ε α J G W → Label J G I W → Prop} [hC : ∀ s l, Decidable (C s l)] :
    (s : Fleet S ε α J G W) → (schedule : List (Label J G I W)) →
      Decidable (Meets jobs h C s schedule)
  | _, [] => .isTrue trivial
  | s, l :: schedule =>
    have : Decidable (Meets jobs h C (s.step jobs h l) schedule) :=
      instDecidableMeets (s.step jobs h l) schedule
    inferInstanceAs (Decidable (C s l ∧ Meets jobs h C (s.step jobs h l) schedule))

/-- An attempt of up to `n` calls under one input, and what ends it. -/
def attempt (g : G) (n : Nat) (i : I) (ending : Label J G I W) : List (Label J G I W) :=
  .start g :: (List.replicate n (.call g i) ++ [ending])

end Fleet

/-- A law of every record of a history, given the records before it. -/
def Along (law : Record S α J W → List (Record S α J W) → Prop) :
    List (Record S α J W) → Prop
  | [] => True
  | record :: earlier => law record earlier ∧ Along law earlier

instance {law : Record S α J W → List (Record S α J W) → Prop} [h : ∀ r e, Decidable (law r e)] :
    (history : List (Record S α J W)) → Decidable (Along law history)
  | [] => .isTrue trivial
  | record :: earlier =>
    have : Decidable (Along law earlier) := instDecidableAlong earlier
    inferInstanceAs (Decidable (law record earlier ∧ Along law earlier))

theorem Along.of_forall {law : Record S α J W → List (Record S α J W) → Prop}
    {history : List (Record S α J W)} (h : ∀ record earlier, law record earlier) :
    Along law history := by
  induction history with
  | nil => trivial
  | cons record earlier ih => exact ⟨h record earlier, ih⟩

theorem Along.at {law : Record S α J W → List (Record S α J W) → Prop}
    {later earlier : List (Record S α J W)} {record : Record S α J W}
    (h : Along law (later ++ record :: earlier)) : law record earlier := by
  induction later with
  | nil => exact h.1
  | cons r later ih => exact ih h.2

/-- A law of a history is one of every earlier history. -/
theorem Along.suffix {law : Record S α J W → List (Record S α J W) → Prop}
    {earlier history : List (Record S α J W)} (h : Along law history)
    (hearlier : earlier <:+ history) : Along law earlier := by
  obtain ⟨later, rfl⟩ := hearlier
  induction later with
  | nil => exact h
  | cons record later ih => exact ih h.2

namespace Fleet

variable [DecidableEq G] {jobs : Jobs S ε α J G} {h : Handler S W I}
  {C : Fleet S ε α J G W → Label J G I W → Prop} {s₀ s : Fleet S ε α J G W}

theorem Reaches.mono {C' : Fleet S ε α J G W → Label J G I W → Prop}
    (hs : Reaches jobs h C s₀ s) (hC : ∀ s l, C s l → C' s l) : Reaches jobs h C' s₀ s := by
  induction hs with
  | refl => exact .refl
  | step _ hl ih => exact .step ih (hC _ _ hl)

/-- Each step of a run is made in a fleet that the run has reached. -/
theorem Reaches.reached (hs : Reaches jobs h C s₀ s) :
    Reaches jobs h (fun s l => C s l ∧ Reaches jobs h C s₀ s) s₀ s := by
  induction hs with
  | refl => exact .refl
  | step hs hl ih => exact .step ih ⟨hl, hs⟩

theorem Reaches.play {schedule : List (Label J G I W)} (hs : Reaches jobs h C s₀ s)
    (hC : ∀ s, ∀ l ∈ schedule, C s l) : Reaches jobs h C s₀ (s.play jobs h schedule) := by
  induction schedule generalizing s with
  | nil => exact hs
  | cons l schedule ih =>
    exact ih (.step hs (hC s l List.mem_cons_self)) fun s l' hl' =>
      hC s l' (List.mem_cons_of_mem l hl')

theorem Reaches.play_meets {schedule : List (Label J G I W)} (hs : Reaches jobs h C s₀ s)
    (hC : Meets jobs h C s schedule) : Reaches jobs h C s₀ (s.play jobs h schedule) := by
  induction schedule generalizing s with
  | nil => exact hs
  | cons l schedule ih => exact ih (.step hs hC.1) hC.2

/-- A condition on the labels alone goes along with a condition on the steps. -/
theorem Meets.and {P : Label J G I W → Prop} {schedule : List (Label J G I W)}
    (hC : Meets jobs h C s schedule) (hP : ∀ l ∈ schedule, P l) :
    Meets jobs h (fun s l => C s l ∧ P l) s schedule := by
  induction schedule generalizing s with
  | nil => trivial
  | cons l schedule ih =>
    exact ⟨⟨hC.1, hP l List.mem_cons_self⟩, ih hC.2 fun l' hl' => hP l' (List.mem_cons_of_mem l hl')⟩

/-! ## What is left of the attempts -/

/-- No job is in a lane. -/
def Idle (s : Fleet S ε α J G W) : Prop :=
  ∀ g, s.lanes g = .resting []

/-- Each lane holds jobs of its own group that pass the test `K`, and what is left of an attempt
passes the test `R`, which may look at the history. -/
def Attempts (jobs : Jobs S ε α J G) (K : J → Prop)
    (R : List (Record S α J W) → J → Prog S ε α → Prop) (s : Fleet S ε α J G W) : Prop :=
  ∀ g, (∀ job ∈ (s.lanes g).jobs, jobs.group job = g ∧ K job) ∧
    ∀ job p rest, s.lanes g = .working job p rest → R s.history job p

variable {K : J → Prop} {R : List (Record S α J W) → J → Prog S ε α → Prop}

omit [DecidableEq G] in
theorem Idle.attempts (hs : s.Idle) : s.Attempts jobs K R := by
  intro g
  rw [hs g]
  exact ⟨fun job hjob => absurd hjob List.not_mem_nil, fun job p rest hp => nomatch hp⟩

omit [DecidableEq G] in
theorem Attempts.oldest (hs : s.Attempts jobs K R) {g : G} {job : J} {p : Prog S ε α}
    {rest : List J} (hg : s.lanes g = .working job p rest) : jobs.group job = g ∧ K job :=
  (hs g).1 job (by rw [hg]; exact List.mem_cons_self)

/-- A lane is replaced; the history is as before. -/
theorem Attempts.setLane (hs : s.Attempts jobs K R) {g : G} {lane : Lane S ε α J}
    (hgroup : ∀ job ∈ lane.jobs, jobs.group job = g ∧ K job)
    (hlane : ∀ job p rest, lane = .working job p rest → R s.history job p) :
    Attempts jobs K R { s with lanes := Function.update s.lanes g lane } := by
  intro g'
  by_cases hg : g' = g
  · subst hg
    simp only [Function.update_self]
    exact ⟨hgroup, hlane⟩
  · simp only [Function.update_of_ne hg]
    exact hs g'

/-- A lane is replaced and leaves a record; the other lanes see it in the history only. -/
theorem Attempts.record (hs : s.Attempts jobs K R) {g : G} {lane : Lane S ε α J} {w : W}
    {record : Record S α J W} (hrecord : jobs.group record.job = g)
    (hother : ∀ job p, jobs.group record.job ≠ jobs.group job → R s.history job p →
      R (record :: s.history) job p)
    (hgroup : ∀ job ∈ lane.jobs, jobs.group job = g ∧ K job)
    (hlane : ∀ job p rest, lane = .working job p rest → R (record :: s.history) job p) :
    Attempts jobs K R
      { world := w, lanes := Function.update s.lanes g lane, history := record :: s.history } := by
  intro g'
  by_cases hg : g' = g
  · subst hg
    simp only [Function.update_self]
    exact ⟨hgroup, hlane⟩
  · simp only [Function.update_of_ne hg]
    refine ⟨(hs g').1, fun job p rest hp => ?_⟩
    have hjob : jobs.group job = g' := (hs.oldest hp).1
    exact hother job p (by rw [hrecord, hjob]; exact Ne.symm hg) ((hs g').2 job p rest hp)

/-- A program passes the test when it starts, its own calls keep it, and so do the records of other
lanes. -/
theorem Attempts.step {l : Label J G I W} (hs : s.Attempts jobs K R)
    (hpublish : ∀ job, l = .publish job → K job)
    (hstart : ∀ job, K job → R s.history job (jobs.program job))
    (hcall : ∀ g i job op next, l = .call g i → K job → s.Calls g job op →
      R s.history job (.call op next) →
      R (.called job op s.world (h op i s.world).1 (h op i s.world).2 :: s.history) job
        (next (h op i s.world).1))
    (hother : ∀ record job p, jobs.group record.job ≠ jobs.group job → R s.history job p →
      R (record :: s.history) job p) : (s.step jobs h l).Attempts jobs K R := by
  cases l with
  | publish job =>
    refine hs.setLane (fun job' hjob' => ?_) fun job' p rest hp => ?_
    · rw [Lane.jobs_add, List.mem_append, List.mem_singleton] at hjob'
      rcases hjob' with hold | rfl
      · exact (hs _).1 job' hold
      · exact ⟨rfl, hpublish job' rfl⟩
    · -- the oldest job of a working lane stays the oldest
      cases hold : s.lanes (jobs.group job) with
      | resting waiting =>
        rw [hold] at hp
        exact nomatch hp
      | working first q others =>
        rw [hold] at hp
        obtain ⟨rfl, rfl, -⟩ := Lane.working.inj hp
        exact (hs _).2 first q others hold
  | outside world => exact hs
  | start g =>
    rw [Fleet.step]
    split
    · next job rest hg =>
      refine hs.setLane (fun job' hjob' => (hs g).1 job' (hg ▸ hjob')) fun job' p rest' hp => ?_
      obtain ⟨rfl, rfl, -⟩ := Lane.working.inj hp
      exact hstart job ((hs g).1 job (hg ▸ List.mem_cons_self)).2
    · exact hs
  | call g i =>
    rw [Fleet.step]
    split
    · next job op next rest hg =>
      obtain ⟨hjob, hK⟩ := hs.oldest hg
      refine hs.record hjob (hother _) (fun job' hjob' => (hs g).1 job' (hg ▸ hjob'))
        fun job' p rest' hp => ?_
      obtain ⟨rfl, rfl, -⟩ := Lane.working.inj hp
      exact hcall g i job op next rfl hK ⟨next, rest, hg⟩ ((hs g).2 job _ rest hg)
    · exact hs
  | finish g =>
    rw [Fleet.step]
    split
    · next job a rest hg =>
      refine hs.record ((hs.oldest hg).1) (hother _) (fun job' hjob' => ?_) fun job' p rest' hp =>
        nomatch hp
      exact (hs g).1 job' (hg ▸ List.mem_cons_of_mem job hjob')
    · exact hs
  | abandon g =>
    rw [Fleet.step]
    split
    · next job p rest hg =>
      exact hs.setLane (fun job' hjob' => (hs g).1 job' (hg ▸ hjob')) fun _ _ _ hp => nomatch hp
    · exact hs

/-! ## Runs -/

/-- The induction over runs. `Inv` is an invariant of the world, `law` a law of the records, `K` a
test of the jobs and `R` one of what is left of each attempt. -/
theorem Reaches.rule (Inv : W → Prop) (law : Record S α J W → List (Record S α J W) → Prop)
    (hs : Reaches jobs h C s₀ s) (hidle : s₀.Idle) (hinv : Inv s₀.world)
    (hlaw : Along law s₀.history)
    (hpublish : ∀ s job, C s (.publish job) → K job)
    (houtside : ∀ s w, C s (.outside w) → Inv s.world → Inv w)
    (hstart : ∀ history job, K job → R history job (jobs.program job))
    (hcall : ∀ s g i job op next, C s (.call g i) → K job → s.Calls g job op → Inv s.world →
      Along law s.history → R s.history job (.call op next) →
      let record := .called job op s.world (h op i s.world).1 (h op i s.world).2
      Inv (h op i s.world).2 ∧ law record s.history ∧
        R (record :: s.history) job (next (h op i s.world).1))
    (hfinish : ∀ s g job a, C s (.finish g) → K job → s.Returns g job a → Along law s.history →
      R s.history job (.done a) → law (.finished job a) s.history)
    (hother : ∀ history record job p, jobs.group record.job ≠ jobs.group job → R history job p →
      R (record :: history) job p) :
    Inv s.world ∧ Along law s.history ∧ s.Attempts jobs K R := by
  induction hs with
  | refl => exact ⟨hinv, hlaw, hidle.attempts⟩
  | @step s l _ hl ih =>
    obtain ⟨hw, hpast, hattempts⟩ := ih
    have hstep : (s.step jobs h l).Attempts jobs K R :=
      hattempts.step (fun job hlabel => hpublish s job (hlabel ▸ hl)) (fun job => hstart _ job)
        (fun g i job op next hlabel hK hcalls hR =>
          (hcall s g i job op next (hlabel ▸ hl) hK hcalls hw hpast hR).2.2)
        fun record job p => hother s.history record job p
    suffices Inv (s.step jobs h l).world ∧ Along law (s.step jobs h l).history from
      ⟨this.1, this.2, hstep⟩
    cases l with
    | publish job => exact ⟨hw, hpast⟩
    | outside world => exact ⟨houtside s world hl hw, hpast⟩
    | start g => rw [Fleet.step]; split <;> exact ⟨hw, hpast⟩
    | call g i =>
      rw [Fleet.step]
      split
      · next job op next rest hg =>
        obtain ⟨hafter, hrecord, -⟩ := hcall s g i job op next hl (hattempts.oldest hg).2
          ⟨next, rest, hg⟩ hw hpast ((hattempts g).2 job _ rest hg)
        exact ⟨hafter, hrecord, hpast⟩
      · exact ⟨hw, hpast⟩
    | finish g =>
      rw [Fleet.step]
      split
      · next job a rest hg =>
        exact ⟨hw, hfinish s g job a hl (hattempts.oldest hg).2 ⟨rest, hg⟩ hpast
          ((hattempts g).2 job _ rest hg), hpast⟩
      · exact ⟨hw, hpast⟩
    | abandon g => rw [Fleet.step]; split <;> exact ⟨hw, hpast⟩

/-- Every lane holds jobs of its own group, in whatever run. -/
theorem Reaches.grouped (hs : Reaches jobs h C s₀ s) (hidle : s₀.Idle) :
    s.Attempts jobs (fun _ => True) fun _ _ _ => True := by
  refine (hs.rule (fun _ => True) (fun _ _ => True) hidle trivial (Along.of_forall fun _ _ => trivial)
    ?_ ?_ ?_ ?_ ?_ ?_).2.2
  · exact fun _ _ _ => trivial
  · exact fun _ _ _ _ => trivial
  · exact fun _ _ _ => trivial
  · exact fun _ _ _ _ _ _ _ _ _ _ _ _ => ⟨trivial, trivial, trivial⟩
  · exact fun _ _ _ _ _ _ _ _ _ => trivial
  · exact fun _ _ _ _ _ _ => trivial

end Fleet

end Atomic
