import LarpBot.Foundation.Redelivery

/-!
# Attempts that are cut off

A program that is resumed for a while gets answers to its calls, and between them the rest of the world
moves. `Prog.resume` is what is left of the program then. In a fleet the same happens to the oldest job of a
lane (`play_occurrences`), and the other lanes only get new jobs.
-/

namespace Atomic

variable {S : Signature} {ε α J G I W : Type}

/-- What happens next while a job is attempted. -/
inductive Occurrence (J I W : Type) where
  | answer (input : I)
  | outside (world : W)
  | publish (job : J)

/-- What one occurrence makes of a program and of the world. An answer that nothing waits for is void. -/
def Prog.advance (h : Handler S W I) (p : Prog S ε α) (w : W) : Occurrence J I W → Prog S ε α × W
  | .answer i => match p with
    | .call op next => (next (h op i w).1, (h op i w).2)
    | p => (p, w)
  | .outside w' => (p, w')
  | .publish _ => (p, w)

/-- What is left of a program, and the world by then. -/
def Prog.resume (h : Handler S W I) (p : Prog S ε α) (w : W) : List (Occurrence J I W) → Prog S ε α × W
  | [] => (p, w)
  | occurrence :: later =>
    (p.advance h w occurrence).1.resume h (p.advance h w occurrence).2 later

namespace Occurrence

/-- The step of a fleet, for the job of a lane. -/
def label (g : G) : Occurrence J I W → Label J G I W
  | answer i => .call g i
  | outside w => .outside w
  | publish job => .publish job

/-- The step of a fleet, while no job is attempted. -/
def idle? : Occurrence J I W → Option (Label J G I W)
  | answer _ => none
  | outside w => some (.outside w)
  | publish job => some (.publish job)

/-- The world after what has happened while no job was attempted. -/
def worldAfter (w : W) : List (Occurrence J I W) → W
  | [] => w
  | outside w' :: later => worldAfter w' later
  | _ :: later => worldAfter w later

/-- The jobs that a lane gets meanwhile. -/
def published [DecidableEq G] (group : J → G) (g : G) : List (Occurrence J I W) → List J
  | [] => []
  | publish job :: later => if group job = g then job :: published group g later else published group g later
  | _ :: later => published group g later

theorem published_append [DecidableEq G] {group : J → G} {g : G} (occurrences later : List (Occurrence J I W)) :
    published group g (occurrences ++ later) = published group g occurrences ++ published group g later := by
  induction occurrences with
  | nil => rfl
  | cons occurrence rest ih =>
    cases occurrence with
    | answer i => exact ih
    | outside w => exact ih
    | publish job =>
      rw [List.cons_append, published, published, ih]
      split <;> rfl

end Occurrence

namespace Fleet

variable [DecidableEq G] {jobs : Jobs S ε α J G} {h : Handler S W I} {s : Fleet S ε α J G W} {g : G}

theorem play_append (schedule schedule' : List (Label J G I W)) :
    s.play jobs h (schedule ++ schedule') = (s.play jobs h schedule).play jobs h schedule' :=
  List.foldl_append

/-- A publication adds a job to its own lane. -/
theorem lanes_publish (job : J) (g : G) : (s.step jobs h (.publish job)).lanes g =
    if jobs.group job = g then (s.lanes g).add job else s.lanes g := by
  by_cases hg : jobs.group job = g
  · subst hg
    rw [if_pos rfl]
    exact Function.update_self ..
  · rw [if_neg hg]
    exact Function.update_of_ne (Ne.symm hg) ..

theorem step_occurrence {job : J} {p : Prog S ε α} {rest : List J} (hg : s.lanes g = .working job p rest)
    (occurrence : Occurrence J I W) :
    (s.step jobs h (occurrence.label g)).world = (p.advance h s.world occurrence).2 ∧
      (s.step jobs h (occurrence.label g)).lanes g =
        .working job (p.advance h s.world occurrence).1
          (rest ++ Occurrence.published jobs.group g [occurrence]) := by
  cases occurrence with
  | answer i =>
    simp only [Occurrence.published, List.append_nil]
    show (s.step jobs h (.call g i)).world = _ ∧ (s.step jobs h (.call g i)).lanes g = _
    cases p with
    | call op next =>
      rw [Fleet.step, hg]
      exact ⟨rfl, Function.update_self ..⟩
    | done a =>
      rw [Fleet.step, hg]
      exact ⟨rfl, hg⟩
    | fail e =>
      rw [Fleet.step, hg]
      exact ⟨rfl, hg⟩
  | outside w =>
    refine ⟨rfl, ?_⟩
    simp only [Occurrence.published, List.append_nil]
    exact hg
  | publish job' =>
    refine ⟨rfl, ?_⟩
    show (s.step jobs h (.publish job')).lanes g = _
    rw [lanes_publish, hg]
    simp only [Occurrence.published]
    by_cases hgroup : jobs.group job' = g
    · rw [if_pos hgroup, if_pos hgroup]
      rfl
    · rw [if_neg hgroup, if_neg hgroup, List.append_nil]
      rfl

/-- What an attempt has done after a while: the lane holds what is left of the program. -/
theorem play_occurrences {job : J} {p : Prog S ε α} {rest : List J} (hg : s.lanes g = .working job p rest)
    (occurrences : List (Occurrence J I W)) :
    (s.play jobs h (occurrences.map (Occurrence.label g))).world = (p.resume h s.world occurrences).2 ∧
      (s.play jobs h (occurrences.map (Occurrence.label g))).lanes g =
        .working job (p.resume h s.world occurrences).1
          (rest ++ Occurrence.published jobs.group g occurrences) := by
  induction occurrences generalizing s p rest with
  | nil =>
    refine ⟨rfl, ?_⟩
    rw [Occurrence.published, List.append_nil]
    exact hg
  | cons occurrence later ih =>
    obtain ⟨hworld, hlane⟩ := step_occurrence (h := h) hg occurrence
    obtain ⟨hworld', hlane'⟩ := ih hlane
    rw [hworld] at hworld' hlane'
    refine ⟨hworld', hlane'.trans ?_⟩
    rw [List.append_assoc, ← Occurrence.published_append]
    rfl

/-- The lanes that wait only get new jobs. -/
theorem play_waiting {g' : G} (hne : g' ≠ g) {waiting : List J} (hwaiting : s.lanes g' = .resting waiting)
    (occurrences : List (Occurrence J I W)) :
    (s.play jobs h (occurrences.map (Occurrence.label g))).lanes g' =
      .resting (waiting ++ Occurrence.published jobs.group g' occurrences) := by
  induction occurrences generalizing s waiting with
  | nil =>
    rw [Occurrence.published, List.append_nil]
    exact hwaiting
  | cons occurrence later ih =>
    have hstep : (s.step jobs h (occurrence.label g)).lanes g' =
        .resting (waiting ++ Occurrence.published jobs.group g' [occurrence]) := by
      cases occurrence with
      | answer i =>
        simp only [Occurrence.published, List.append_nil]
        show (s.step jobs h (.call g i)).lanes g' = _
        rw [Fleet.step]
        split
        · exact (Function.update_of_ne hne ..).trans hwaiting
        · exact hwaiting
      | outside w =>
        simp only [Occurrence.published, List.append_nil]
        exact hwaiting
      | publish job' =>
        show (s.step jobs h (.publish job')).lanes g' = _
        rw [lanes_publish, hwaiting]
        simp only [Occurrence.published]
        split <;> simp [Lane.add]
    refine (ih hstep).trans ?_
    rw [List.append_assoc, ← Occurrence.published_append]
    rfl

/-- While nothing is attempted. -/
theorem play_idle {waiting : List J} (hwaiting : s.lanes g = .resting waiting)
    (occurrences : List (Occurrence J I W)) :
    (s.play jobs h (occurrences.filterMap Occurrence.idle?)).world = Occurrence.worldAfter s.world occurrences ∧
      (s.play jobs h (occurrences.filterMap Occurrence.idle?)).lanes g =
        .resting (waiting ++ Occurrence.published jobs.group g occurrences) := by
  induction occurrences generalizing s waiting with
  | nil =>
    refine ⟨rfl, ?_⟩
    rw [Occurrence.published, List.append_nil]
    exact hwaiting
  | cons occurrence later ih =>
    cases occurrence with
    | answer i => exact ih hwaiting
    | outside w => exact ih (s := s.step jobs h (.outside w)) hwaiting
    | publish job' =>
      have hstep : (s.step jobs h (.publish job')).lanes g =
          .resting (waiting ++ Occurrence.published jobs.group g ([.publish job'] : List (Occurrence J I W))) := by
        rw [lanes_publish, hwaiting]
        simp only [Occurrence.published]
        split <;> simp [Lane.add]
      obtain ⟨hworld, hlane⟩ := ih hstep
      refine ⟨hworld, hlane.trans ?_⟩
      rw [List.append_assoc, ← Occurrence.published_append]
      rfl

/-- An attempt with what happens meanwhile; at its end the job leaves if it has returned and if it may. -/
def attemptWith (g : G) (occurrences : List (Occurrence J I W)) (leaves : Bool) : List (Label J G I W) :=
  .start g :: (occurrences.map (Occurrence.label g) ++ if leaves then [.finish g, .abandon g] else [.abandon g])

/-! ### What a schedule publishes -/

section Published

/-- The jobs that the steps of a schedule publish in a lane. -/
def publishedBy (group : J → G) (g : G) : List (Label J G I W) → List J
  | [] => []
  | .publish job :: later => if group job = g then job :: publishedBy group g later else publishedBy group g later
  | _ :: later => publishedBy group g later

variable {group : J → G} {g g' : G}

theorem publishedBy_append (schedule later : List (Label J G I W)) :
    publishedBy group g (schedule ++ later) = publishedBy group g schedule ++ publishedBy group g later := by
  induction schedule with
  | nil => rfl
  | cons l schedule ih =>
    cases l with
    | publish job =>
      rw [List.cons_append, publishedBy, publishedBy, ih]
      split <;> rfl
    | _ => exact ih

theorem publishedBy_labels (occurrences : List (Occurrence J I W)) :
    publishedBy group g (occurrences.map (Occurrence.label g')) = Occurrence.published group g occurrences := by
  induction occurrences with
  | nil => rfl
  | cons occurrence later ih =>
    cases occurrence with
    | publish job => rw [List.map_cons, Occurrence.label, publishedBy, Occurrence.published, ih]
    | _ => exact ih

theorem publishedBy_idle (occurrences : List (Occurrence J I W)) :
    publishedBy group g (occurrences.filterMap Occurrence.idle?) = Occurrence.published group g occurrences := by
  induction occurrences with
  | nil => rfl
  | cons occurrence later ih =>
    cases occurrence with
    | publish job =>
      rw [List.filterMap_cons, Occurrence.idle?, publishedBy, Occurrence.published, ih]
    | _ => exact ih

theorem publishedBy_attemptWith (occurrences : List (Occurrence J I W)) (leaves : Bool) :
    publishedBy group g (attemptWith g' occurrences leaves) = Occurrence.published group g occurrences := by
  have hend : publishedBy group g ((if leaves then [.finish g', .abandon g'] else [.abandon g'] :
      List (Label J G I W))) = [] := by
    cases leaves <;> rfl
  show publishedBy group g (occurrences.map (Occurrence.label g') ++ _) = _
  rw [publishedBy_append, publishedBy_labels, hend, List.append_nil]

end Published

/-- The jobs of a lane after an attempt at the first one. -/
def remaining (p : Prog S ε α) (leaves : Bool) (job : J) (rest : List J) : List J :=
  match p, leaves with
  | .done _, true => rest
  | _, _ => job :: rest

theorem step_abandon {job : J} {p : Prog S ε α} {behind : List J} (hg : s.lanes g = .working job p behind) :
    s.step jobs h (.abandon g) = { s with lanes := Function.update s.lanes g (.resting (job :: behind)) } := by
  rw [Fleet.step, hg]

theorem play_ending {job : J} {p : Prog S ε α} {behind : List J} (hg : s.lanes g = .working job p behind)
    (leaves : Bool) :
    (s.play jobs h (if leaves then [.finish g, .abandon g] else [.abandon g])).world = s.world ∧
      (s.play jobs h (if leaves then [.finish g, .abandon g] else [.abandon g])).lanes g =
        .resting (remaining p leaves job behind) ∧
      ∀ g' ≠ g, (s.play jobs h (if leaves then [.finish g, .abandon g] else [.abandon g])).lanes g' = s.lanes g' := by
  have habandon : (s.step jobs h (.abandon g)).world = s.world ∧
      (s.step jobs h (.abandon g)).lanes g = .resting (job :: behind) ∧
      ∀ g' ≠ g, (s.step jobs h (.abandon g)).lanes g' = s.lanes g' := by
    rw [step_abandon hg]
    exact ⟨rfl, Function.update_self .., fun g' hne => Function.update_of_ne hne ..⟩
  cases leaves with
  | false =>
    cases p <;> exact habandon
  | true =>
    show ((s.step jobs h (.finish g)).step jobs h (.abandon g)).world = _ ∧
      ((s.step jobs h (.finish g)).step jobs h (.abandon g)).lanes g = _ ∧
      ∀ g' ≠ g, ((s.step jobs h (.finish g)).step jobs h (.abandon g)).lanes g' = _
    cases p with
    | done a =>
      have hfinish : s.step jobs h (.finish g) =
          { s with
            lanes := Function.update s.lanes g (.resting behind)
            history := .finished job a :: s.history } := by
        rw [Fleet.step, hg]
      have hresting : (s.step jobs h (.finish g)).lanes g = .resting behind := by
        rw [hfinish]
        exact Function.update_self ..
      have hvoid : (s.step jobs h (.finish g)).step jobs h (.abandon g) = s.step jobs h (.finish g) := by
        generalize s.step jobs h (.finish g) = s₁ at hresting
        rw [Fleet.step, hresting]
      rw [hvoid]
      refine ⟨by rw [hfinish], hresting, fun g' hne => ?_⟩
      rw [hfinish]
      exact Function.update_of_ne hne ..
    | fail e =>
      have hvoid : s.step jobs h (.finish g) = s := by rw [Fleet.step, hg]
      rw [hvoid]
      exact habandon
    | call op next =>
      have hvoid : s.step jobs h (.finish g) = s := by rw [Fleet.step, hg]
      rw [hvoid]
      exact habandon

theorem play_attemptWith {job : J} {rest : List J} (hg : s.lanes g = .resting (job :: rest))
    (occurrences : List (Occurrence J I W)) (leaves : Bool) :
    (s.play jobs h (attemptWith g occurrences leaves)).world =
        ((jobs.program job).resume h s.world occurrences).2 ∧
      (s.play jobs h (attemptWith g occurrences leaves)).lanes g = .resting
        (remaining ((jobs.program job).resume h s.world occurrences).1 leaves job
          (rest ++ Occurrence.published jobs.group g occurrences)) ∧
      ∀ g' waiting, g' ≠ g → s.lanes g' = .resting waiting →
        (s.play jobs h (attemptWith g occurrences leaves)).lanes g' =
          .resting (waiting ++ Occurrence.published jobs.group g' occurrences) := by
  have hstart : s.step jobs h (.start g) =
      { s with lanes := Function.update s.lanes g (.working job (jobs.program job) rest) } := by
    rw [Fleet.step, hg]
  have hworking : (s.step jobs h (.start g)).lanes g = .working job (jobs.program job) rest := by
    rw [hstart]
    exact Function.update_self ..
  have hstarted : (s.step jobs h (.start g)).world = s.world := by rw [hstart]
  obtain ⟨hworld, hlane⟩ := play_occurrences (h := h) hworking occurrences
  rw [hstarted] at hworld hlane
  have hothers (g' : G) (waiting : List J) (hne : g' ≠ g) (hwaiting : s.lanes g' = .resting waiting) :
      ((s.step jobs h (.start g)).play jobs h (occurrences.map (Occurrence.label g))).lanes g' =
        .resting (waiting ++ Occurrence.published jobs.group g' occurrences) := by
    refine play_waiting hne ?_ occurrences
    rw [hstart]
    exact (Function.update_of_ne hne ..).trans hwaiting
  have hplay : s.play jobs h (attemptWith g occurrences leaves) =
      ((s.step jobs h (.start g)).play jobs h (occurrences.map (Occurrence.label g))).play jobs h
        (if leaves then [.finish g, .abandon g] else [.abandon g]) :=
    play_append ..
  rw [hplay]
  obtain ⟨hendWorld, hendLane, hendOthers⟩ := play_ending (h := h) hlane leaves
  refine ⟨hendWorld.trans hworld, hendLane, fun g' waiting hne hwaiting => ?_⟩
  rw [hendOthers g' hne]
  exact hothers g' waiting hne hwaiting

end Fleet

end Atomic
