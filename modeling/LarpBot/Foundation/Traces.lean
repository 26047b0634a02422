import LarpBot.Foundation.Redelivery

/-!
# Programs that remember their calls

`Prog.Makes` says which calls a program makes. Here a call may be justified by the calls that the
same attempt has made before, and by their answers: a write that follows the read it was decided on,
a message that goes out after a mark was stored. `Prog.Traced` reads that off the text of a program,
`Made` finds the calls of an attempt among the records of a run, and `Reaches.trace_rule` is the
induction over runs that puts the two together. What an attempt may rely on while others make their
calls is `Reaches.rely_rule`.
-/

namespace Atomic

/-- A call with its answer. -/
abbrev Signature.Entry (S : Signature) :=
  (op : S.Op) × S.Ans op

variable {S : Signature} {ε α β J G I W : Type}

namespace Prog

/-- From the calls `made` on, latest first: each call passes `T`, each failure `X` and each value
`Q`, given the calls before it, as long as the answers are among `A`. -/
def Traced (A : (op : S.Op) → S.Ans op → Prop) (T : List S.Entry → S.Op → Prop)
    (X : List S.Entry → ε → Prop) (Q : List S.Entry → α → Prop) :
    Prog S ε α → List S.Entry → Prop
  | .done a, made => Q made a
  | .fail e, made => X made e
  | .call op next, made => T made op ∧ ∀ a, A op a → (next a).Traced A T X Q (⟨op, a⟩ :: made)

/-- The calls of a whole run of the program that returns, oldest first. -/
inductive Completes : Prog S ε α → List S.Entry → α → Prop
  | done (a : α) : Completes (.done a) [] a
  | call {op : S.Op} {next : S.Ans op → Prog S ε α} {x : S.Ans op} {calls : List S.Entry} {a : α}
    (h : Completes (next x) calls a) : Completes (.call op next) (⟨op, x⟩ :: calls) a

variable {A : (op : S.Op) → S.Ans op → Prop} {T T' : List S.Entry → S.Op → Prop}
  {X Y : List S.Entry → ε → Prop} {Q : List S.Entry → α → Prop} {made : List S.Entry}

theorem Traced.bind {p : Prog S ε α} {f : α → Prog S ε β} {R : List S.Entry → β → Prop}
    (hp : p.Traced A T X Q made) (hf : ∀ made a, Q made a → (f a).Traced A T X R made) :
    (p.bind f).Traced A T X R made := by
  induction p generalizing made with
  | done a => exact hf made a hp
  | fail e => exact hp
  | call op next ih => exact ⟨hp.1, fun a ha => ih a (hp.2 a ha)⟩

theorem Traced.catching {p : Prog S ε α} {f : ε → Prog S ε α} (hp : p.Traced A T Y Q made)
    (hf : ∀ made e, Y made e → (f e).Traced A T X Q made) :
    (p.catching f).Traced A T X Q made := by
  induction p generalizing made with
  | done a => exact hp
  | fail e => exact hf made e hp
  | call op next ih => exact ⟨hp.1, fun a ha => ih a (hp.2 a ha)⟩

theorem Traced.mono {p : Prog S ε α} {Q' : List S.Entry → α → Prop} (hp : p.Traced A T X Q made)
    (hT : ∀ made op, T made op → T' made op) (hX : ∀ made e, X made e → Y made e)
    (hQ : ∀ made a, Q made a → Q' made a) : p.Traced A T' Y Q' made := by
  induction p generalizing made with
  | done a => exact hQ made a hp
  | fail e => exact hX made e hp
  | call op next ih => exact ⟨hT made op hp.1, fun a ha => ih a (hp.2 a ha)⟩

/-- A program whose calls pass a test whatever came before; what it has made it keeps. -/
theorem Makes.traced {p : Prog S ε α} {P : S.Op → Prop} {R : α → Prop} (hp : p.Makes A P R)
    (made : List S.Entry) :
    p.Traced A (fun made' op => made <:+ made' ∧ P op) (fun made' _ => made <:+ made')
      (fun made' a => made <:+ made' ∧ R a) made := by
  suffices ∀ made', made <:+ made' → p.Traced A (fun made' op => made <:+ made' ∧ P op)
      (fun made' _ => made <:+ made') (fun made' a => made <:+ made' ∧ R a) made' from
    this made (List.suffix_refl made)
  intro made' hmade
  induction p generalizing made' with
  | done a => exact ⟨hmade, hp⟩
  | fail e => exact hmade
  | call op next ih =>
    exact ⟨⟨hmade, hp.1⟩, fun a ha => ih a (hp.2 a ha) _ (hmade.trans (List.suffix_cons _ _))⟩

/-- A law of the calls that every call of a program keeps. -/
theorem Makes.keeps {p : Prog S ε α} {P : S.Op → Prop} {R : α → Prop} {K : List S.Entry → Prop}
    (hp : p.Makes A P R) (hK : ∀ made op a, P op → A op a → K made → K (⟨op, a⟩ :: made))
    (hmade : K made) :
    p.Traced A (fun made op => K made ∧ P op) (fun made _ => K made) (fun made a => K made ∧ R a)
      made := by
  induction p generalizing made with
  | done a => exact ⟨hmade, hp⟩
  | fail e => exact hmade
  | call op next ih =>
    exact ⟨⟨hmade, hp.1⟩, fun a ha => ih a (hp.2 a ha) (hK made op a hp.1 ha hmade)⟩

/-- A program that returns has made the calls of a whole run. -/
theorem traced_completes (p : Prog S ε α) (made : List S.Entry) :
    p.Traced A (fun _ _ => True) (fun _ _ => True)
      (fun made' a => ∃ calls, made' = calls.reverse ++ made ∧ p.Completes calls a) made := by
  induction p generalizing made with
  | done a => exact ⟨[], rfl, .done a⟩
  | fail e => trivial
  | call op next ih =>
    refine ⟨trivial, fun x _ => (ih x _).mono (fun _ _ h => h) (fun _ _ h => h) ?_⟩
    rintro made' a ⟨calls, rfl, hcalls⟩
    exact ⟨⟨op, x⟩ :: calls, by simp, .call hcalls⟩

/-- What the text of a program says of its values holds of every whole run. -/
theorem Completes.traced {p : Prog S ε α} {calls : List S.Entry} {a : α} (h : p.Completes calls a)
    (hp : p.Traced (fun _ _ => True) T X Q made) : Q (calls.reverse ++ made) a := by
  induction h generalizing made with
  | done a => exact hp
  | @call op next x calls a _ ih => simpa using ih (hp.2 x trivial)

/-- A program keeps the calls it has made. -/
theorem traced_suffix (p : Prog S ε α) (made : List S.Entry) :
    p.Traced A (fun _ _ => True) (fun _ _ => True) (fun made' _ => made <:+ made') made :=
  (traced_completes p made).mono (fun _ _ h => h) (fun _ _ h => h)
    (by rintro _ _ ⟨calls, rfl, -⟩; exact List.suffix_append _ _)

/-- What was made before a program is there at each of its calls. -/
theorem traced_since (p : Prog S ε α) {made' : List S.Entry} (h : made <:+ made') :
    p.Traced A (fun made' _ => made <:+ made') (fun made' _ => made <:+ made')
      (fun made' _ => made <:+ made') made' := by
  induction p generalizing made' with
  | done a => exact h
  | fail e => exact h
  | call op next ih => exact ⟨h, fun a _ => ih a (h.trans (List.suffix_cons _ _))⟩

/-- Two readings of one program. -/
theorem Traced.and {p : Prog S ε α} {Q' : List S.Entry → α → Prop} (hp : p.Traced A T X Q made)
    (hp' : p.Traced A T' Y Q' made) :
    p.Traced A (fun made op => T made op ∧ T' made op) (fun made e => X made e ∧ Y made e)
      (fun made a => Q made a ∧ Q' made a) made := by
  induction p generalizing made with
  | done a => exact ⟨hp, hp'⟩
  | fail e => exact ⟨hp, hp'⟩
  | call op next ih => exact ⟨⟨hp.1, hp'.1⟩, fun a ha => ih a (hp.2 a ha) (hp'.2 a ha)⟩

theorem Traced.forEach {f : α → Prog S ε Unit} {as : List α} {K : List S.Entry → Prop}
    (hf : ∀ a ∈ as, ∀ made, K made → (f a).Traced A T X (fun made _ => K made) made)
    (hmade : K made) : (Prog.forEach f as).Traced A T X (fun made _ => K made) made := by
  induction as generalizing made with
  | nil => exact hmade
  | cons a as ih =>
    refine (hf a List.mem_cons_self made hmade).bind fun made _ h => ?_
    exact ih (fun a' ha' => hf a' (List.mem_cons_of_mem a ha')) h

end Prog

/-! ## The calls of an attempt in the history -/

/-- The calls `made` are calls of the job that no record of its lane interrupts, from the latest
one back. -/
inductive Made (jobs : Jobs S ε α J G) (job : J) :
    List (Record S α J W) → List S.Entry → Prop
  | none (history : List (Record S α J W)) : Made jobs job history []
  | own {history : List (Record S α J W)} {made : List S.Entry} {op : S.Op} {before after : W}
    {answer : S.Ans op} (h : Made jobs job history made) :
    Made jobs job (.called job op before answer after :: history) (⟨op, answer⟩ :: made)
  | other {history : List (Record S α J W)} {made : List S.Entry} {record : Record S α J W}
    (hrecord : jobs.group record.job ≠ jobs.group job) (h : Made jobs job history made) :
    Made jobs job (record :: history) made

variable {jobs : Jobs S ε α J G} {job : J} {history : List (Record S α J W)}
  {made : List S.Entry}

/-- Each call of an attempt is a record of the history. -/
theorem Made.mem (h : Made jobs job history made) {op : S.Op} {answer : S.Ans op}
    (hmem : ⟨op, answer⟩ ∈ made) :
    ∃ before after, Record.called job op before answer after ∈ history := by
  induction h with
  | none => exact absurd hmem List.not_mem_nil
  | @own _ _ op' before after answer' _ ih =>
    rcases List.mem_cons.mp hmem with hsame | hmem
    · cases hsame
      exact ⟨before, after, List.mem_cons_self⟩
    · obtain ⟨before, after, hrecord⟩ := ih hmem
      exact ⟨before, after, List.mem_cons_of_mem _ hrecord⟩
  | other _ _ ih =>
    obtain ⟨before, after, hrecord⟩ := ih hmem
    exact ⟨before, after, List.mem_cons_of_mem _ hrecord⟩

/-- The latest of the calls. -/
theorem Made.latest {made' : List S.Entry} (h : Made jobs job history made) (hs : made' <+: made) :
    Made jobs job history made' := by
  induction h generalizing made' with
  | none history => exact List.prefix_nil.mp hs ▸ .none history
  | @own history _ op _ _ answer _ ih =>
    cases made' with
    | nil => exact .none _
    | cons entry made' =>
      obtain ⟨rfl, hrest⟩ := List.cons_prefix_cons.mp hs
      exact .own (ih hrest)
  | other hrecord _ ih => exact .other hrecord (ih hs)

/-- The latest call of an attempt is a record of the history, and the others are before it. -/
theorem Made.cons {op : S.Op} {answer : S.Ans op} (h : Made jobs job history (⟨op, answer⟩ :: made)) :
    ∃ before after earlier, (.called job op before answer after :: earlier) <:+ history ∧
      Made jobs job earlier made := by
  generalize hcalls : (⟨op, answer⟩ :: made : List S.Entry) = calls at h
  induction h with
  | none => exact nomatch hcalls
  | @own earlier _ _ before after _ h _ =>
    obtain ⟨hsame, rfl⟩ := List.cons.inj hcalls
    cases hsame
    exact ⟨before, after, earlier, List.suffix_refl _, h⟩
  | other _ _ ih =>
    obtain ⟨before, after, earlier, hsuffix, hmade⟩ := ih hcalls
    exact ⟨before, after, earlier, hsuffix.trans (List.suffix_cons _ _), hmade⟩

/-- The latest answer to a call of a lane that tells something of a kind. -/
def latestAnswer (jobs : Jobs S ε α J G) [DecidableEq G] (g : G)
    (kind : (op : S.Op) → S.Ans op → Option β) : List (Record S α J W) → Option β
  | [] => none
  | .called job op _ answer _ :: earlier =>
    if jobs.group job = g then (kind op answer).or (latestAnswer jobs g kind earlier)
    else latestAnswer jobs g kind earlier
  | .finished _ _ :: earlier => latestAnswer jobs g kind earlier

/-- The calls of an attempt are the latest ones of its lane. -/
theorem Made.latestAnswer_eq [DecidableEq G] (h : Made jobs job history made)
    {kind : (op : S.Op) → S.Ans op → Option β} {b : β}
    (hb : made.findSome? (fun entry => kind entry.1 entry.2) = some b) :
    latestAnswer jobs (jobs.group job) kind history = some b := by
  induction h with
  | none => exact nomatch hb
  | @own _ _ op _ _ answer _ ih =>
    rw [latestAnswer, if_pos rfl]
    cases htold : kind op answer with
    | none =>
      rw [List.findSome?_cons, htold] at hb
      rw [Option.none_or]
      exact ih hb
    | some b' =>
      rw [List.findSome?_cons, htold] at hb
      rw [Option.some_or]
      exact hb
  | @other _ _ record hrecord _ ih =>
    cases record with
    | called job' op before answer after =>
      rw [latestAnswer, if_neg (show jobs.group job' ≠ jobs.group job from hrecord)]
      exact ih hb
    | finished job' a => exact ih hb

/-- What came before a record. -/
theorem suffix_of_split {R : Type} (later : List R) (record : R) (earlier : List R) :
    earlier <:+ later ++ record :: earlier :=
  (List.suffix_cons record earlier).trans (List.suffix_append later _)

/-- A program has been run to its end by one attempt at the job, call after call, whatever other
lanes did in between. -/
def Performed (jobs : Jobs S ε α J G) (job : J) (history : List (Record S α J W))
    {β : Type} (p : Prog S ε β) : Prop :=
  ∃ earlier calls value, earlier <:+ history ∧ p.Completes calls value ∧
    Made jobs job earlier calls.reverse

theorem Performed.later {p : Prog S ε β} {history' : List (Record S α J W)}
    (h : Performed jobs job history p) (hlater : history <:+ history') :
    Performed jobs job history' p := by
  obtain ⟨earlier, calls, value, hsuffix, hcalls, hmade⟩ := h
  exact ⟨earlier, calls, value, hsuffix.trans hlater, hcalls, hmade⟩

/-! ## Runs -/

namespace Fleet

variable [DecidableEq G] {h : Handler S W I}
  {C : Fleet S ε α J G W → Label J G I W → Prop} {s₀ s : Fleet S ε α J G W}

omit [DecidableEq G] in
theorem Attempts.mono {K K' : J → Prop} {R R' : List (Record S α J W) → J → Prog S ε α → Prop}
    (hs : s.Attempts jobs K R) (hK : ∀ job, K job → K' job)
    (hR : ∀ job p, R s.history job p → R' s.history job p) : s.Attempts jobs K' R' := by
  intro g
  refine ⟨fun job hjob => ?_, fun job p rest hp => hR job p ((hs g).2 job p rest hp)⟩
  exact ⟨((hs g).1 job hjob).1, hK job ((hs g).1 job hjob).2⟩

/-- The history is as before, or it has one record more. -/
theorem history_step (s : Fleet S ε α J G W) (l : Label J G I W) :
    (s.step jobs h l).history = s.history ∨
      ∃ record, (s.step jobs h l).history = record :: s.history := by
  cases l with
  | publish job => exact .inl rfl
  | outside world => exact .inl rfl
  | start g => rw [Fleet.step]; split <;> exact .inl rfl
  | call g i => rw [Fleet.step]; split; exacts [.inr ⟨_, rfl⟩, .inl rfl]
  | finish g => rw [Fleet.step]; split; exacts [.inr ⟨_, rfl⟩, .inl rfl]
  | abandon g => rw [Fleet.step]; split <;> exact .inl rfl

section TraceRule

variable {A : (op : S.Op) → S.Ans op → Prop} {T : J → List S.Entry → S.Op → Prop}
  {X : J → List S.Entry → ε → Prop} {Q : J → List S.Entry → α → Prop}
  {K : List (Record S α J W) → J → Prop}

/-- What is left of an attempt is traced from calls that the history has. -/
def Remembers (jobs : Jobs S ε α J G) (A : (op : S.Op) → S.Ans op → Prop)
    (T : J → List S.Entry → S.Op → Prop) (X : J → List S.Entry → ε → Prop)
    (Q : J → List S.Entry → α → Prop) (history : List (Record S α J W)) (job : J)
    (p : Prog S ε α) : Prop :=
  ∃ made, Made jobs job history made ∧ p.Traced A (T job) (X job) (Q job) made

/-- The induction over runs of programs that remember their calls. `Inv` relates the world to the
history, and `K` is a test of the jobs that no further record undoes. -/
theorem Reaches.trace_rule (Inv : List (Record S α J W) → W → Prop)
    (hs : Reaches jobs h C s₀ s) (hidle : s₀.Idle) (hinv : Inv s₀.history s₀.world)
    (htraced : ∀ job, (jobs.program job).Traced A (T job) (X job) (Q job) [])
    (hK : ∀ history record job, K history job → K (record :: history) job)
    (hpublish : ∀ s job, C s (.publish job) → Inv s.history s.world → K s.history job)
    (houtside : ∀ s w, C s (.outside w) → Inv s.history s.world → Inv s.history w)
    (hanswer : ∀ s g i op, C s (.call g i) → Inv s.history s.world → A op (h op i s.world).1)
    (hcall : ∀ s g i job op made, C s (.call g i) → s.Calls g job op → K s.history job →
      Made jobs job s.history made → T job made op → Inv s.history s.world →
      Inv (.called job op s.world (h op i s.world).1 (h op i s.world).2 :: s.history)
        (h op i s.world).2)
    (hfinish : ∀ s g job a made, C s (.finish g) → s.Returns g job a → K s.history job →
      Made jobs job s.history made → Q job made a → Inv s.history s.world →
      Inv (.finished job a :: s.history) s.world) :
    Inv s.history s.world ∧ s.Attempts jobs (K s.history) (Remembers jobs A T X Q) := by
  induction hs with
  | refl => exact ⟨hinv, hidle.attempts⟩
  | @step s l _ hl ih =>
    obtain ⟨hw, hattempts⟩ := ih
    have hstep : (s.step jobs h l).Attempts jobs (K s.history) (Remembers jobs A T X Q) := by
      refine hattempts.step (fun job hlabel => hpublish s job (hlabel ▸ hl) hw)
        (fun job _ => ⟨[], .none _, htraced job⟩) ?_ ?_
      · rintro g i job op next rfl - - ⟨made, hmade, hp⟩
        exact ⟨_, .own hmade, hp.2 _ (hanswer s g i op hl hw)⟩
      · rintro record job p hrecord ⟨made, hmade, hp⟩
        exact ⟨made, .other hrecord hmade, hp⟩
    have hgrown : (s.step jobs h l).Attempts jobs (K (s.step jobs h l).history)
        (Remembers jobs A T X Q) := by
      refine hstep.mono (fun job hjob => ?_) fun _ _ hR => hR
      have hstep : (s.step jobs h l).history = s.history ∨
          ∃ record, (s.step jobs h l).history = record :: s.history := history_step s l
      rcases hstep with hsame | ⟨record, hmore⟩
      · rw [hsame]; exact hjob
      · rw [hmore]; exact hK _ record job hjob
    suffices Inv (s.step jobs h l).history (s.step jobs h l).world from ⟨this, hgrown⟩
    cases l with
    | publish job => exact hw
    | outside world => exact houtside s world hl hw
    | start g => rw [Fleet.step]; split <;> exact hw
    | call g i =>
      rw [Fleet.step]
      split
      · next job op next rest hg =>
        obtain ⟨made, hmade, hp⟩ := (hattempts g).2 job _ rest hg
        exact hcall s g i job op made hl ⟨next, rest, hg⟩ (hattempts.oldest hg).2 hmade hp.1 hw
      · exact hw
    | finish g =>
      rw [Fleet.step]
      split
      · next job a rest hg =>
        obtain ⟨made, hmade, hp⟩ := (hattempts g).2 job _ rest hg
        exact hfinish s g job a made hl ⟨rest, hg⟩ (hattempts.oldest hg).2 hmade hp hw
      · exact hw
    | abandon g => rw [Fleet.step]; split <;> exact hw

end TraceRule

/-! ## What an attempt may rely on -/

/-- The oldest job of a lane is being attempted, and this is what is left of the attempt. -/
def Working (s : Fleet S ε α J G W) (g : G) (job : J) (p : Prog S ε α) : Prop :=
  ∃ rest, s.lanes g = .working job p rest

omit [DecidableEq G] in
theorem Working.calls {g : G} {job : J} {op : S.Op} {next : S.Ans op → Prog S ε α}
    (hp : s.Working g job (.call op next)) : s.Calls g job op := by
  obtain ⟨rest, hlane⟩ := hp
  exact ⟨next, rest, hlane⟩

/-- What becomes of an attempt at a step. -/
inductive Goes (jobs : Jobs S ε α J G) (h : Handler S W I) (s : Fleet S ε α J G W)
    (l : Label J G I W) (g : G) (job : J) (p : Prog S ε α) : Prop
  | stays (hp : (s.step jobs h l).Working g job p)
  | calls (i : I) (op : S.Op) (next : S.Ans op → Prog S ε α) (hl : l = .call g i)
      (hp : p = .call op next)
      (hnext : (s.step jobs h l).Working g job (next (h op i s.world).1))
      (hhistory : (s.step jobs h l).history =
        .called job op s.world (h op i s.world).1 (h op i s.world).2 :: s.history)
  | returns (a : α) (hl : l = .finish g) (hp : p = .done a)
      (hhistory : (s.step jobs h l).history = .finished job a :: s.history)
  | abandoned (hl : l = .abandon g)

theorem Working.goes {g : G} {job : J} {p : Prog S ε α} (hp : s.Working g job p)
    (l : Label J G I W) : Goes jobs h s l g job p := by
  obtain ⟨rest, hlane⟩ := hp
  -- a step that replaces another lane
  have other {g' : G} {lane : Lane S ε α J} (hg : g ≠ g') :
      ∃ rest, Function.update s.lanes g' lane g = .working job p rest :=
    ⟨rest, by rw [Function.update_of_ne hg, hlane]⟩
  cases l with
  | publish job' =>
    by_cases hg : g = jobs.group job'
    · subst hg
      refine .stays ⟨rest ++ [job'], ?_⟩
      rw [Fleet.step]
      simp only [Function.update_self, hlane]
      rfl
    · exact .stays (other hg)
  | outside world => exact .stays ⟨rest, hlane⟩
  | start g' =>
    refine .stays ?_
    rw [Fleet.step]
    split
    · next hother =>
      by_cases hg : g = g'
      · subst hg
        cases hlane.symm.trans hother
      · exact other hg
    · exact ⟨rest, hlane⟩
  | call g' i =>
    by_cases hg : g = g'
    · subst hg
      cases p with
      | call op next =>
        refine .calls i op next rfl rfl ⟨rest, ?_⟩ ?_
        · simp only [Fleet.step, hlane, Function.update_self]
        · simp only [Fleet.step, hlane]
      | done a => exact .stays ⟨rest, by simp only [Fleet.step, hlane]⟩
      | fail e => exact .stays ⟨rest, by simp only [Fleet.step, hlane]⟩
    · refine .stays ?_
      rw [Fleet.step]
      split
      · exact other hg
      · exact ⟨rest, hlane⟩
  | finish g' =>
    by_cases hg : g = g'
    · subst hg
      cases p with
      | done a => exact .returns a rfl rfl (by simp only [Fleet.step, hlane])
      | call op next => exact .stays ⟨rest, by simp only [Fleet.step, hlane]⟩
      | fail e => exact .stays ⟨rest, by simp only [Fleet.step, hlane]⟩
    · refine .stays ?_
      rw [Fleet.step]
      split
      · exact other hg
      · exact ⟨rest, hlane⟩
  | abandon g' =>
    by_cases hg : g = g'
    · exact .abandoned (hg ▸ rfl)
    · refine .stays ?_
      rw [Fleet.step]
      split
      · exact other hg
      · exact ⟨rest, hlane⟩

/-- How an attempt comes to be under way after a step. -/
inductive Proceeds (jobs : Jobs S ε α J G) (h : Handler S W I) (s : Fleet S ε α J G W)
    (l : Label J G I W) (g : G) (job : J) (p : Prog S ε α) : Prop
  /-- It was so before, and the step has left the world alone. -/
  | still (hp : s.Working g job p) (hworld : (s.step jobs h l).world = s.world)
  /-- It was so before, and the rest of the world has moved. -/
  | outside (w : W) (hl : l = .outside w) (hp : s.Working g job p)
  /-- It was so before, and another lane has made a call. -/
  | other (g' : G) (i : I) (job' : J) (op : S.Op) (next : S.Ans op → Prog S ε α)
      (hl : l = .call g' i) (hg : g' ≠ g) (hcalls : s.Working g' job' (.call op next))
      (hp : s.Working g job p) (hworld : (s.step jobs h l).world = (h op i s.world).2)
  /-- The step has started it. -/
  | start (hl : l = .start g) (hp : p = jobs.program job)
      (hworld : (s.step jobs h l).world = s.world)
  /-- The step was a call of its own. -/
  | own (i : I) (op : S.Op) (next : S.Ans op → Prog S ε α) (hl : l = .call g i)
      (hcalls : s.Working g job (.call op next)) (hp : p = next (h op i s.world).1)
      (hworld : (s.step jobs h l).world = (h op i s.world).2)

theorem Working.proceeds {l : Label J G I W} {g : G} {job : J} {p : Prog S ε α}
    (hp : (s.step jobs h l).Working g job p) : Proceeds jobs h s l g job p := by
  -- a lane that the step does not touch
  have other {g' : G} {lane : Lane S ε α J} (hg : g ≠ g')
      (hp : ∃ rest, Function.update s.lanes g' lane g = .working job p rest) :
      s.Working g job p := by
    obtain ⟨rest, hrest⟩ := hp
    exact ⟨rest, by rwa [Function.update_of_ne hg] at hrest⟩
  cases l with
  | publish job' =>
    refine .still ?_ rfl
    by_cases hg : g = jobs.group job'
    · obtain ⟨rest, hrest⟩ := hp
      subst hg
      simp only [Fleet.step, Function.update_self] at hrest
      cases hlane : s.lanes (jobs.group job') with
      | resting waiting =>
        rw [hlane] at hrest
        cases hrest
      | working first attempt others =>
        rw [hlane] at hrest
        obtain ⟨rfl, rfl, -⟩ := Lane.working.inj hrest
        exact ⟨others, hlane⟩
    · exact other hg hp
  | outside world => exact .outside world rfl hp
  | start g' =>
    cases hlane : s.lanes g' with
    | working first attempt rest =>
      have hsame : s.step jobs h (.start g') = s := by rw [Fleet.step, hlane]
      exact .still (hsame ▸ hp) (by rw [hsame])
    | resting waiting =>
      cases waiting with
      | nil =>
        have hsame : s.step jobs h (.start g') = s := by rw [Fleet.step, hlane]
        exact .still (hsame ▸ hp) (by rw [hsame])
      | cons first rest =>
        have hworld : (s.step jobs h (.start g')).world = s.world := by rw [Fleet.step, hlane]
        obtain ⟨rest', hrest⟩ := hp
        simp only [Fleet.step, hlane] at hrest
        by_cases hg : g = g'
        · subst hg
          rw [Function.update_self] at hrest
          obtain ⟨rfl, rfl, -⟩ := Lane.working.inj hrest
          exact .start rfl rfl hworld
        · exact .still (other hg ⟨rest', hrest⟩) hworld
  | call g' i =>
    cases hlane : s.lanes g' with
    | resting waiting =>
      have hsame : s.step jobs h (.call g' i) = s := by rw [Fleet.step, hlane]
      exact .still (hsame ▸ hp) (by rw [hsame])
    | working first attempt rest =>
      cases attempt with
      | done a =>
        have hsame : s.step jobs h (.call g' i) = s := by rw [Fleet.step, hlane]
        exact .still (hsame ▸ hp) (by rw [hsame])
      | fail e =>
        have hsame : s.step jobs h (.call g' i) = s := by rw [Fleet.step, hlane]
        exact .still (hsame ▸ hp) (by rw [hsame])
      | call op next =>
        have hworld : (s.step jobs h (.call g' i)).world = (h op i s.world).2 := by
          rw [Fleet.step, hlane]
        obtain ⟨rest', hrest⟩ := hp
        simp only [Fleet.step, hlane] at hrest
        by_cases hg : g = g'
        · subst hg
          rw [Function.update_self] at hrest
          obtain ⟨rfl, rfl, -⟩ := Lane.working.inj hrest
          exact .own i op next rfl ⟨rest, hlane⟩ rfl hworld
        · exact .other g' i first op next rfl (Ne.symm hg) ⟨rest, hlane⟩ (other hg ⟨rest', hrest⟩)
            hworld
  | finish g' =>
    refine .still ?_ (by rw [Fleet.step]; split <;> rfl)
    rw [Fleet.step] at hp
    split at hp
    · next first a rest hlane =>
      obtain ⟨rest', hrest⟩ := hp
      by_cases hg : g = g'
      · subst hg
        simp only [Function.update_self] at hrest
        cases hrest
      · exact other hg ⟨rest', hrest⟩
    · exact hp
  | abandon g' =>
    refine .still ?_ (by rw [Fleet.step]; split <;> rfl)
    rw [Fleet.step] at hp
    split at hp
    · next first attempt rest hlane =>
      obtain ⟨rest', hrest⟩ := hp
      by_cases hg : g = g'
      · subst hg
        simp only [Function.update_self] at hrest
        cases hrest
      · exact other hg ⟨rest', hrest⟩
    · exact hp

/-- What is known of each attempt under way. `Knows` is what is known of the world when this is left
of an attempt: it holds when the attempt starts, its own calls keep it, and so do the calls of the
others, of which as much is known. `Base` is what is known of every fleet that is reached. -/
theorem Reaches.attempt_rule (Base : Fleet S ε α J G W → Prop)
    (Knows : J → Prog S ε α → W → Prop) (hs : Reaches jobs h C s₀ s) (hidle : s₀.Idle)
    (hbase : ∀ s, Reaches jobs h C s₀ s → Base s)
    (hstart : ∀ s job, Base s → Knows job (jobs.program job) s.world)
    (hown : ∀ s g i job op next, Base s → C s (.call g i) → s.Working g job (.call op next) →
      Knows job (.call op next) s.world → Knows job (next (h op i s.world).1) (h op i s.world).2)
    (hother : ∀ s g i job op next g' job' p, Base s → C s (.call g i) →
      s.Working g job (.call op next) → Knows job (.call op next) s.world → g ≠ g' →
        s.Working g' job' p → Knows job' p s.world → Knows job' p (h op i s.world).2)
    (houtside : ∀ s w g job p, Base s → C s (.outside w) → s.Working g job p →
      Knows job p s.world → Knows job p w) :
    ∀ g job p, s.Working g job p → Knows job p s.world := by
  induction hs with
  | refl =>
    intro g job p hp
    obtain ⟨rest, hlane⟩ := hp
    rw [hidle g] at hlane
    exact nomatch hlane
  | @step s l hs hl ih =>
    intro g job p hnow
    cases hnow.proceeds with
    | still hp hworld =>
      rw [hworld]
      exact ih g job p hp
    | outside w hlabel hp =>
      subst hlabel
      exact houtside s w g job p (hbase s hs) hl hp (ih g job p hp)
    | other g' i job' op next hlabel hg hcalls hp hworld =>
      subst hlabel
      rw [hworld]
      exact hother s g' i job' op next g job p (hbase s hs) hl hcalls (ih g' job' _ hcalls) hg hp
        (ih g job p hp)
    | start hlabel hp hworld =>
      rw [hworld, hp]
      exact hstart s job (hbase s hs)
    | own i op next hlabel hcalls hp hworld =>
      subst hlabel
      rw [hworld, hp]
      exact hown s g i job op next (hbase s hs) hl hcalls (ih g job _ hcalls)

/-- What an attempt may rely on, where the others keep it whatever is known of them. -/
theorem Reaches.rely_rule (Base : Fleet S ε α J G W → Prop) (Knows : J → Prog S ε α → W → Prop)
    (hs : Reaches jobs h C s₀ s) (hidle : s₀.Idle)
    (hbase : ∀ s, Reaches jobs h C s₀ s → Base s)
    (hstart : ∀ s job, Base s → Knows job (jobs.program job) s.world)
    (hown : ∀ s g i job op next, Base s → C s (.call g i) → s.Working g job (.call op next) →
      Knows job (.call op next) s.world → Knows job (next (h op i s.world).1) (h op i s.world).2)
    (hother : ∀ s g i job op next g' job' p, Base s → C s (.call g i) →
      s.Working g job (.call op next) → g ≠ g' → s.Working g' job' p → Knows job' p s.world →
        Knows job' p (h op i s.world).2)
    (houtside : ∀ s w g job p, Base s → C s (.outside w) → s.Working g job p →
      Knows job p s.world → Knows job p w) :
    ∀ g job p, s.Working g job p → Knows job p s.world :=
  hs.attempt_rule Base Knows hidle hbase hstart hown
    (fun s g i job op next g' job' p hb hC hcalls _ => hother s g i job op next g' job' p hb hC hcalls)
    houtside

end Fleet

/-! ## Attempts that are given up only when they are settled -/

/-- The calls that a lane has made since it last finished a job, latest first. -/
def callsSince (jobs : Jobs S ε α J G) [DecidableEq G] (g : G) :
    List (Record S α J W) → List S.Entry
  | [] => []
  | .called job op _ answer _ :: earlier =>
    if jobs.group job = g then ⟨op, answer⟩ :: callsSince jobs g earlier
    else callsSince jobs g earlier
  | .finished job _ :: earlier => if jobs.group job = g then [] else callsSince jobs g earlier

theorem callsSince_of_ne [DecidableEq G] {g : G} {record : Record S α J W}
    (h : jobs.group record.job ≠ g) :
    callsSince jobs g (record :: history) = callsSince jobs g history := by
  cases record with
  | called job op before answer after =>
    exact if_neg h
  | finished job a => exact if_neg h

theorem callsSince_own [DecidableEq G] {op : S.Op} {before after : W} {answer : S.Ans op} :
    callsSince jobs (jobs.group job) (.called job op before answer after :: history) =
      ⟨op, answer⟩ :: callsSince jobs (jobs.group job) history :=
  if_pos rfl

/-- A call is added to the calls of its own lane. -/
theorem callsSince_called [DecidableEq G] (jobs : Jobs S ε α J G)
    (history : List (Record S α J W)) (g : G) (job : J) (op : S.Op) (before after : W)
    (answer : S.Ans op) :
    callsSince jobs g (.called job op before answer after :: history) = callsSince jobs g history ∨
      jobs.group job = g ∧ callsSince jobs g (.called job op before answer after :: history) =
        ⟨op, answer⟩ :: callsSince jobs g history := by
  by_cases hg : jobs.group job = g
  · exact .inr ⟨hg, if_pos hg⟩
  · exact .inl (if_neg hg)

/-- A lane of which there is no record has made no calls. -/
theorem callsSince_of_forall [DecidableEq G] {g : G}
    (h : ∀ record ∈ history, jobs.group record.job ≠ g) : callsSince jobs g history = [] := by
  induction history with
  | nil => rfl
  | cons record earlier ih =>
    rw [callsSince_of_ne (h record List.mem_cons_self)]
    exact ih fun record hrecord => h record (List.mem_cons_of_mem _ hrecord)

/-- They are records of the history. -/
theorem mem_callsSince [DecidableEq G] {g : G} {op : S.Op} {answer : S.Ans op}
    (h : ⟨op, answer⟩ ∈ callsSince jobs g history) :
    ∃ job before after, Record.called job op before answer after ∈ history := by
  have older {record : Record S α J W} {earlier : List (Record S α J W)}
      (hmem : ∃ job before after, Record.called job op before answer after ∈ earlier) :
      ∃ job before after, Record.called job op before answer after ∈ record :: earlier := by
    obtain ⟨job, before, after, hrecord⟩ := hmem
    exact ⟨job, before, after, List.mem_cons_of_mem _ hrecord⟩
  induction history with
  | nil => exact absurd h List.not_mem_nil
  | cons record earlier ih =>
    cases record with
    | called job op' before answer' after =>
      rw [callsSince] at h
      split at h
      · rcases List.mem_cons.mp h with hsame | hold
        · cases hsame
          exact ⟨job, before, after, List.mem_cons_self⟩
        · exact older (ih hold)
      · exact older (ih h)
    | finished job a =>
      rw [callsSince] at h
      split at h
      · exact absurd h List.not_mem_nil
      · exact older (ih h)

namespace Fleet

variable [DecidableEq G] {h : Handler S W I}
  {C : Fleet S ε α J G W → Label J G I W → Prop} {s₀ s : Fleet S ε α J G W}
  {A : (op : S.Op) → S.Ans op → Prop} {T : J → List S.Entry → S.Op → Prop}
  {X : J → List S.Entry → ε → Prop} {Q : J → List S.Entry → α → Prop}

/-- What a lane is at, seen from all the calls that it has made at its job. `Z` says of which calls
an attempt may be given up after. -/
def LaneSettled (jobs : Jobs S ε α J G) (A : (op : S.Op) → S.Ans op → Prop)
    (Z : List S.Entry → Prop) (T : J → List S.Entry → S.Op → Prop)
    (X : J → List S.Entry → ε → Prop) (Q : J → List S.Entry → α → Prop) (g : G)
    (made : List S.Entry) : Lane S ε α J → Prop
  | .resting waiting => Z made ∧ ∀ job ∈ waiting, jobs.group job = g
  | .working job p rest => p.Traced A (T job) (X job) (Q job) made ∧
      jobs.group job = g ∧ ∀ job ∈ rest, jobs.group job = g

/-- Every lane is at what its calls say. -/
def WholeSettled (jobs : Jobs S ε α J G) (A : (op : S.Op) → S.Ans op → Prop)
    (Z : List S.Entry → Prop) (T : J → List S.Entry → S.Op → Prop)
    (X : J → List S.Entry → ε → Prop) (Q : J → List S.Entry → α → Prop)
    (s : Fleet S ε α J G W) : Prop :=
  ∀ g, LaneSettled jobs A Z T X Q g (callsSince jobs g s.history) (s.lanes g)

variable {Z : List S.Entry → Prop}

/-- A lane is replaced; the others see nothing of it. -/
theorem WholeSettled.setLane {g : G} {lane : Lane S ε α J} {history : List (Record S α J W)} {w : W}
    (hs : s.WholeSettled jobs A Z T X Q)
    (hothers : ∀ g', g' ≠ g → callsSince jobs g' history = callsSince jobs g' s.history)
    (hlane : LaneSettled jobs A Z T X Q g (callsSince jobs g history) lane) :
    WholeSettled jobs A Z T X Q
      { world := w, lanes := Function.update s.lanes g lane, history := history } := by
  intro g'
  by_cases hg : g' = g
  · subst hg
    simp only [Function.update_self]
    exact hlane
  · simp only [Function.update_of_ne hg, hothers g' hg]
    exact hs g'

theorem WholeSettled.step (hs : s.WholeSettled jobs A Z T X Q) (hnone : Z [])
    (htraced : ∀ job made, Z made → (jobs.program job).Traced A (T job) (X job) (Q job) made)
    (hanswer : ∀ op i w, A op (h op i w).1) {l : Label J G I W}
    (hl : ∀ g job p, l = .abandon g → s.Working g job p → Z (callsSince jobs g s.history)) :
    (s.step jobs h l).WholeSettled jobs A Z T X Q := by
  cases l with
  | publish job =>
    refine hs.setLane (fun _ _ => rfl) ?_
    have hlane := hs (jobs.group job)
    cases hat : s.lanes (jobs.group job) with
    | resting waiting =>
      rw [hat] at hlane
      refine ⟨hlane.1, fun job' hjob' => ?_⟩
      rcases List.mem_append.mp hjob' with hold | hnew
      · exact hlane.2 job' hold
      · rw [List.mem_singleton.mp hnew]
    | working first p rest =>
      rw [hat] at hlane
      refine ⟨hlane.1, hlane.2.1, fun job' hjob' => ?_⟩
      rcases List.mem_append.mp hjob' with hold | hnew
      · exact hlane.2.2 job' hold
      · rw [List.mem_singleton.mp hnew]
  | outside world => exact hs
  | start g =>
    rw [Fleet.step]
    split
    · next job rest hat =>
      have hlane := hs g
      rw [hat] at hlane
      obtain ⟨hsettled, hgroups⟩ := hlane
      exact hs.setLane (fun _ _ => rfl) ⟨htraced job _ hsettled, hgroups job List.mem_cons_self,
        fun job' hjob' => hgroups job' (List.mem_cons_of_mem _ hjob')⟩
    · exact hs
  | call g i =>
    rw [Fleet.step]
    split
    · next job op next rest hat =>
      have hlane := hs g
      rw [hat] at hlane
      obtain ⟨hp, hgroup, hrest⟩ := hlane
      subst hgroup
      refine hs.setLane (fun g' hg => callsSince_of_ne (Ne.symm hg)) ⟨?_, rfl, hrest⟩
      rw [callsSince_own]
      exact hp.2 _ (hanswer op i s.world)
    · exact hs
  | finish g =>
    rw [Fleet.step]
    split
    · next job a rest hat =>
      have hlane := hs g
      rw [hat] at hlane
      obtain ⟨-, hgroup, hrest⟩ := hlane
      subst hgroup
      refine hs.setLane (fun g' hg => callsSince_of_ne (Ne.symm hg)) ⟨?_, hrest⟩
      rw [callsSince, if_pos rfl]
      exact hnone
    · exact hs
  | abandon g =>
    rw [Fleet.step]
    split
    · next job p rest hat =>
      have hlane := hs g
      rw [hat] at hlane
      obtain ⟨-, hgroup, hrest⟩ := hlane
      refine hs.setLane (fun _ _ => rfl) ⟨hl g job p rfl ⟨rest, hat⟩, fun job' hjob' => ?_⟩
      rcases List.mem_cons.mp hjob' with rfl | hjob'
      · exact hgroup
      · exact hrest job' hjob'
    · exact hs

/-- The induction over runs in which attempts are given up only after calls that pass `Z`: a call is
justified by all the calls that its lane has made since it last finished a job. -/
theorem Reaches.settled_rule (Inv : List (Record S α J W) → W → Prop)
    (hs : Reaches jobs h C s₀ s) (hidle : s₀.Idle) (hhistory : s₀.history = [])
    (hinv : Inv [] s₀.world) (hnone : Z [])
    (habandon : ∀ s g job p, C s (.abandon g) → s.Working g job p → Z (callsSince jobs g s.history))
    (htraced : ∀ job made, Z made → (jobs.program job).Traced A (T job) (X job) (Q job) made)
    (hanswer : ∀ op i w, A op (h op i w).1)
    (houtside : ∀ s w, C s (.outside w) → Inv s.history s.world → Inv s.history w)
    (hcall : ∀ s g i job op, C s (.call g i) → s.Calls g job op → jobs.group job = g →
      T job (callsSince jobs g s.history) op → Inv s.history s.world →
      Inv (.called job op s.world (h op i s.world).1 (h op i s.world).2 :: s.history)
        (h op i s.world).2)
    (hfinish : ∀ s g job a, C s (.finish g) → s.Returns g job a → jobs.group job = g →
      Q job (callsSince jobs g s.history) a → Inv s.history s.world →
      Inv (.finished job a :: s.history) s.world) :
    Inv s.history s.world ∧ s.WholeSettled jobs A Z T X Q := by
  induction hs with
  | refl =>
    refine ⟨hhistory ▸ hinv, fun g => ?_⟩
    rw [hidle g, hhistory]
    exact ⟨hnone, fun job hjob => absurd hjob List.not_mem_nil⟩
  | @step s l _ hl ih =>
    obtain ⟨hw, hlanes⟩ := ih
    refine ⟨?_, hlanes.step hnone htraced hanswer fun g job p hlabel => ?_⟩
    · cases l with
      | publish job => exact hw
      | outside world => exact houtside s world hl hw
      | start g => rw [Fleet.step]; split <;> exact hw
      | call g i =>
        rw [Fleet.step]
        split
        · next job op next rest hat =>
          have hlane := hlanes g
          rw [hat] at hlane
          exact hcall s g i job op hl ⟨next, rest, hat⟩ hlane.2.1 hlane.1.1 hw
        · exact hw
      | finish g =>
        rw [Fleet.step]
        split
        · next job a rest hat =>
          have hlane := hlanes g
          rw [hat] at hlane
          exact hfinish s g job a hl ⟨rest, hat⟩ hlane.2.1 hlane.1 hw
        · exact hw
      | abandon g => rw [Fleet.step]; split <;> exact hw
    · subst hlabel
      exact habandon s g job p hl

/-! ## Attempts that are not given up -/

/-- What a lane is at, seen from all the calls that it has made at its job. -/
def LaneTraced (jobs : Jobs S ε α J G) (A : (op : S.Op) → S.Ans op → Prop)
    (T : J → List S.Entry → S.Op → Prop) (X : J → List S.Entry → ε → Prop)
    (Q : J → List S.Entry → α → Prop) (g : G) (made : List S.Entry) : Lane S ε α J → Prop
  | .resting waiting => made = [] ∧ ∀ job ∈ waiting, jobs.group job = g
  | .working job p rest => p.Traced A (T job) (X job) (Q job) made ∧
      jobs.group job = g ∧ ∀ job ∈ rest, jobs.group job = g

/-- Every lane is at what its calls say. -/
def WholeTraced (jobs : Jobs S ε α J G) (A : (op : S.Op) → S.Ans op → Prop)
    (T : J → List S.Entry → S.Op → Prop) (X : J → List S.Entry → ε → Prop)
    (Q : J → List S.Entry → α → Prop) (s : Fleet S ε α J G W) : Prop :=
  ∀ g, LaneTraced jobs A T X Q g (callsSince jobs g s.history) (s.lanes g)

theorem WholeSettled.traced (hs : s.WholeSettled jobs A (· = []) T X Q) :
    s.WholeTraced jobs A T X Q := by
  intro g
  have hlane := hs g
  cases hat : s.lanes g with
  | resting waiting =>
    rw [hat] at hlane
    exact hlane
  | working job p rest =>
    rw [hat] at hlane
    exact hlane

/-- The induction over runs in which no attempt is given up: a call is justified by all the calls
that its lane has made since it last finished a job. -/
theorem Reaches.whole_rule (Inv : List (Record S α J W) → W → Prop)
    (hs : Reaches jobs h C s₀ s) (hidle : s₀.Idle) (hhistory : s₀.history = [])
    (hinv : Inv [] s₀.world) (hwhole : ∀ s g, ¬ C s (.abandon g))
    (htraced : ∀ job, (jobs.program job).Traced A (T job) (X job) (Q job) [])
    (hanswer : ∀ op i w, A op (h op i w).1)
    (houtside : ∀ s w, C s (.outside w) → Inv s.history s.world → Inv s.history w)
    (hcall : ∀ s g i job op, C s (.call g i) → s.Calls g job op → jobs.group job = g →
      T job (callsSince jobs g s.history) op → Inv s.history s.world →
      Inv (.called job op s.world (h op i s.world).1 (h op i s.world).2 :: s.history)
        (h op i s.world).2)
    (hfinish : ∀ (s : Fleet S ε α J G W) job a, Inv s.history s.world →
      Inv (.finished job a :: s.history) s.world) :
    Inv s.history s.world ∧ s.WholeTraced jobs A T X Q := by
  obtain ⟨hw, hlanes⟩ := hs.settled_rule (A := A) (T := T) (X := X) (Q := Q) (Z := (· = [])) Inv hidle
    hhistory hinv rfl (fun s g job p hC => absurd hC (hwhole s g))
    (fun job made hmade => hmade ▸ htraced job) hanswer houtside hcall
    (fun s g job a _ _ _ _ hw => hfinish s job a hw)
  exact ⟨hw, hlanes.traced⟩

end Fleet

end Atomic
