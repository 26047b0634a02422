import LarpBot.Foundation.Program

/-!
# Trails of programs

A trail is one run of a program among others: the calls it makes, each with the store before and
after it, up to its end or to a point at which it is cut off. `Repeats` are runs of a program one
after the other, each of them ending in whatever way, and `Sessions` are runs of different programs.
What `wp` says of a program holds of its trails (`Trail.of_wp`).
-/

namespace Atomic

/-- One call, with the store before and after it. -/
structure Passage (S : Signature) (W : Type) where
  op : S.Op
  before : W
  after : W

variable {S : Signature} {ε W I α : Type}

/-- The trails of a program from a store. The ending is `none` where the run is cut off. -/
inductive Trail (h : Handler S W I) (E : Surround W I) : Prog S ε α → W → List (Passage S W) →
    Option (Except ε α) → W → Prop
  | cut (p : Prog S ε α) (w : W) : Trail h E p w [] none w
  | done (a : α) (w : W) : Trail h E (.done a) w [] (some (.ok a)) w
  | fail (e : ε) (w : W) : Trail h E (.fail e) w [] (some (.error e)) w
  | call {op : S.Op} {next : S.Ans op → Prog S ε α} {w w' w'' : W} {i : I}
    {passages : List (Passage S W)} {ending : Option (Except ε α)} (hmoves : E.moves w w')
    (hi : E.admits i) (hrest : Trail h E (next (h op i w').1) (h op i w').2 passages ending w'') :
    Trail h E (.call op next) w (⟨op, w', (h op i w').2⟩ :: passages) ending w''

/-- Runs of a program one after the other, with moves of the others in between. -/
inductive Repeats (h : Handler S W I) (E : Surround W I) (p : Prog S ε α) : W → W → Prop
  | refl (w : W) : Repeats h E p w w
  | move {w w' w'' : W} (hw : Repeats h E p w w') (hmoves : E.moves w' w'') : Repeats h E p w w''
  | run {w w' w'' : W} {passages : List (Passage S W)} {ending : Option (Except ε α)}
    (hw : Repeats h E p w w') (htrail : Trail h E p w' passages ending w'') : Repeats h E p w w''

variable {h : Handler S W I} {E E' : Surround W I} {G : S.Op → W → W → Prop} {Q : α → W → Prop}
  {X : ε → W → Prop} {p : Prog S ε α} {w w' : W} {passages : List (Passage S W)}
  {ending : Option (Except ε α)} {R : W → W → Prop}

/-- What is true of a program is true of its trails. -/
theorem Trail.of_wp (ht : Trail h E p w passages ending w') (hp : wp h E G Q X p w) :
    (∀ passage ∈ passages, G passage.op passage.before passage.after) ∧
      (∀ a, ending = some (.ok a) → Q a w') ∧ ∀ e, ending = some (.error e) → X e w' := by
  induction ht with
  | cut p w => exact ⟨fun _ hmem => absurd hmem List.not_mem_nil, nofun, nofun⟩
  | done a w =>
    refine ⟨fun _ hmem => absurd hmem List.not_mem_nil, ?_, nofun⟩
    rintro _ ⟨⟩
    exact hp
  | fail e w =>
    refine ⟨fun _ hmem => absurd hmem List.not_mem_nil, nofun, ?_⟩
    rintro _ ⟨⟩
    exact hp
  | @call op next w w₁ w₂ i passages ending hmoves hi _ ih =>
    obtain ⟨hG, hnext⟩ := hp w₁ hmoves i hi
    obtain ⟨hpassages, hends⟩ := ih hnext
    exact ⟨List.forall_mem_cons.mpr ⟨hG, hpassages⟩, hends⟩

/-- What each call keeps, and each move of the others too, a trail keeps. -/
theorem Trail.keeps (ht : Trail h E p w passages ending w') (hrefl : ∀ w, R w w)
    (htrans : ∀ w w' w'', R w w' → R w' w'' → R w w'') (hmoves : ∀ w w', E.moves w w' → R w w')
    (hpassages : ∀ passage ∈ passages, R passage.before passage.after) : R w w' := by
  induction ht with
  | cut | done | fail => exact hrefl _
  | @call op next w w₁ w₂ i passages ending hmove hi _ ih =>
    obtain ⟨hfirst, hrest⟩ := List.forall_mem_cons.mp hpassages
    exact htrans _ _ _ (hmoves _ _ hmove) (htrans _ _ _ hfirst (ih hrest))

/-- The induction over repeated runs. -/
theorem Repeats.keeps (hw : Repeats h E p w w') (hrefl : ∀ w, R w w)
    (htrans : ∀ w w' w'', R w w' → R w' w'' → R w w'') (hmoves : ∀ w w', E.moves w w' → R w w')
    (hrun : ∀ w₁ passages ending w₂, R w w₁ → Trail h E p w₁ passages ending w₂ → R w₁ w₂) :
    R w w' := by
  induction hw with
  | refl => exact hrefl _
  | move _ hmove ih => exact htrans _ _ _ ih (hmoves _ _ hmove)
  | run _ htrail ih => exact htrans _ _ _ ih (hrun _ _ _ _ ih htrail)

/-- Each call of a trail comes after its start and before its end. -/
theorem Trail.between (ht : Trail h E p w passages ending w') (hrefl : ∀ w, R w w)
    (htrans : ∀ w w' w'', R w w' → R w' w'' → R w w'') (hmoves : ∀ w w', E.moves w w' → R w w')
    (hpassages : ∀ passage ∈ passages, R passage.before passage.after) :
    ∀ passage ∈ passages, R w passage.before ∧ R passage.after w' := by
  induction ht with
  | cut | done | fail => exact fun _ hmem => absurd hmem List.not_mem_nil
  | @call op next w w₁ w₂ i passages ending hmove hi hrest ih =>
    obtain ⟨hfirst, hothers⟩ := List.forall_mem_cons.mp hpassages
    have hbefore : R w w₁ := hmoves _ _ hmove
    intro passage hpassage
    rcases List.mem_cons.mp hpassage with rfl | hpassage
    · exact ⟨hbefore, hrest.keeps hrefl htrans hmoves hothers⟩
    · obtain ⟨hlater, hend⟩ := ih hothers passage hpassage
      exact ⟨htrans _ _ _ hbefore (htrans _ _ _ hfirst hlater), hend⟩

/-! ## Runs of different programs -/

/-- One run of the program of a job, with the store that it leaves. -/
structure Session (S : Signature) (ε α J W : Type) where
  job : J
  passages : List (Passage S W)
  ending : Option (Except ε α)
  left : W

variable {J : Type}

/-- Runs of programs one after the other, with moves of the others in between, latest first. -/
inductive Sessions (h : Handler S W I) (E : Surround W I) (program : J → Prog S ε α) (w₀ : W) :
    List (Session S ε α J W) → W → Prop
  | start : Sessions h E program w₀ [] w₀
  | move {past : List (Session S ε α J W)} {w w' : W} (hpast : Sessions h E program w₀ past w)
    (hmoves : E.moves w w') : Sessions h E program w₀ past w'
  | run {past : List (Session S ε α J W)} {w w' : W} (job : J) {passages : List (Passage S W)}
    {ending : Option (Except ε α)} (hpast : Sessions h E program w₀ past w)
    (htrail : Trail h E (program job) w passages ending w') :
    Sessions h E program w₀ (⟨job, passages, ending, w'⟩ :: past) w'

/-- The induction over the sessions: what `wp` says of each program holds of each session, and what
each call keeps is kept from the start to the call and from the call to the end. -/
theorem Sessions.rule {program : J → Prog S ε α} {past : List (Session S ε α J W)} {w₀ : W}
    {G : J → S.Op → W → W → Prop} {Q : J → α → W → Prop} {X : J → ε → W → Prop}
    (hpast : Sessions h E program w₀ past w) (hrefl : ∀ w, R w w)
    (htrans : ∀ w w' w'', R w w' → R w' w'' → R w w'') (hmoves : ∀ w w', E.moves w w' → R w w')
    (hG : ∀ job op w w', G job op w w' → R w w')
    (hprogram : ∀ job w, R w₀ w → wp h E (G job) (Q job) (X job) (program job) w) :
    R w₀ w ∧ ∀ session ∈ past,
      (∀ passage ∈ session.passages, G session.job passage.op passage.before passage.after ∧
        R w₀ passage.before ∧ R passage.after w) ∧
      ∀ a, session.ending = some (.ok a) → Q session.job a session.left := by
  induction hpast with
  | start => exact ⟨hrefl _, fun _ hmem => absurd hmem List.not_mem_nil⟩
  | @move past w w' _ hmove ih =>
    obtain ⟨hw, hall⟩ := ih
    have hstep : R w w' := hmoves _ _ hmove
    refine ⟨htrans _ _ _ hw hstep, fun session hsession => ⟨fun passage hpassage => ?_, ?_⟩⟩
    · obtain ⟨hG', hbefore, hafter⟩ := (hall session hsession).1 passage hpassage
      exact ⟨hG', hbefore, htrans _ _ _ hafter hstep⟩
    · exact (hall session hsession).2
  | @run past w w' job passages ending _ htrail ih =>
    obtain ⟨hw, hall⟩ := ih
    obtain ⟨hpassages, hends, -⟩ := htrail.of_wp (hprogram job w hw)
    have hkept : ∀ passage ∈ passages, R passage.before passage.after :=
      fun passage hpassage => hG _ _ _ _ (hpassages passage hpassage)
    have hstep : R w w' := htrail.keeps hrefl htrans hmoves hkept
    have hbetween := htrail.between hrefl htrans hmoves hkept
    refine ⟨htrans _ _ _ hw hstep, List.forall_mem_cons.mpr ⟨⟨fun passage hpassage => ?_, hends⟩, ?_⟩⟩
    · obtain ⟨hbefore, hafter⟩ := hbetween passage hpassage
      exact ⟨hpassages passage hpassage, htrans _ _ _ hw hbefore, hafter⟩
    · intro session hsession
      refine ⟨fun passage hpassage => ?_, (hall session hsession).2⟩
      obtain ⟨hG', hbefore, hafter⟩ := (hall session hsession).1 passage hpassage
      exact ⟨hG', hbefore, htrans _ _ _ hafter hstep⟩

/-! ## Trails by evaluation -/

/-- The trail of a program under a list of inputs; it is cut off when they are used up. -/
def Prog.follow (h : Handler S W I) :
    Prog S ε α → List I → W → List (Passage S W) × Option (Except ε α) × W
  | .done a, _, w => ([], some (.ok a), w)
  | .fail e, _, w => ([], some (.error e), w)
  | .call _ _, [], w => ([], none, w)
  | .call op next, i :: inputs, w =>
    let rest := (next (h op i w).1).follow h inputs (h op i w).2
    (⟨op, w, (h op i w).2⟩ :: rest.1, rest.2)

theorem Prog.follow_trail (p : Prog S ε α) (inputs : List I) (w : W) (hrefl : ∀ w, E.moves w w)
    (hadmits : ∀ i ∈ inputs, E.admits i) :
    Trail h E p w (p.follow h inputs w).1 (p.follow h inputs w).2.1 (p.follow h inputs w).2.2 := by
  induction p generalizing inputs w with
  | done a => exact .done a w
  | fail e => exact .fail e w
  | call op next ih =>
    cases inputs with
    | nil => exact .cut _ w
    | cons i inputs =>
      obtain ⟨hi, hrest⟩ := List.forall_mem_cons.mp hadmits
      exact .call (hrefl w) hi (ih _ inputs _ hrest)

end Atomic
