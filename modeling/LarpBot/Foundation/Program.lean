import Mathlib

/-!
# Programs of atomic calls

A program is a tree of calls on a store that it does not own: between two calls another program
may have written the store, and a call may ask something of the outside (a clock, a transport).
So a program is not a function of the state it started from; it is the tree of what it does next
for each answer it may get. `Prog` is that tree, `run` is one attempt of it that nobody disturbs,
and `wp` is what a program keeps and delivers when others move between its calls.

`wp` is defined by the program's own recursion, so it comes with one equation for each way to
build a program (`wp_bind`, `wp_call`, `wp_tryCatch`), and a program is reasoned about by rewriting
with them. `run_of_wp` ties it back to the attempt: what `wp` says of every input holds of the run.
-/

namespace Atomic

/-- A result of two steps is one of both. -/
theorem exists_of_bind {ε α β : Type} {x : Except ε α} {f : α → Except ε β} {b : β} (h : (x >>= f) = .ok b) :
    ∃ a, x = .ok a ∧ f a = .ok b := by
  cases x with
  | error e => exact nomatch h
  | ok a => exact ⟨a, rfl, h⟩

/-- The calls a program may make, each with the type of its answer. -/
structure Signature where
  Op : Type
  Ans : Op → Type

/-- A program over a signature: it returns, raises, or makes one atomic call and goes on with the
answer. -/
inductive Prog (S : Signature) (ε α : Type) where
  | done (value : α)
  | fail (error : ε)
  | call (op : S.Op) (next : S.Ans op → Prog S ε α)

variable {S : Signature} {ε W I α β γ : Type}

namespace Prog

/-- Sequencing: the first failure ends the program. -/
def bind : Prog S ε α → (α → Prog S ε β) → Prog S ε β
  | done a, f => f a
  | fail e, _ => fail e
  | call op next, f => call op fun a => (next a).bind f

/-- A handler for every failure of the program, and for no failure of the handler itself. -/
def catching : Prog S ε α → (ε → Prog S ε α) → Prog S ε α
  | done a, _ => done a
  | fail e, f => f e
  | call op next, f => call op fun a => (next a).catching f

instance : Monad (Prog S ε) where
  pure := done
  bind := bind

instance : MonadExceptOf ε (Prog S ε) where
  throw := fail
  tryCatch := catching

/-- How a program ends, as a value. -/
def result {ε' : Type} (p : Prog S ε α) : Prog S ε' (Except ε α) :=
  match p with
  | done a => done (.ok a)
  | fail e => done (.error e)
  | call op next => call op fun a => (next a).result

/-- One call as a program of its own. -/
def ofCall (op : S.Op) : Prog S ε (S.Ans op) :=
  call op done

@[simp] theorem pure_eq_done (a : α) : (pure a : Prog S ε α) = done a := rfl
@[simp] theorem bind_eq (p : Prog S ε α) (f : α → Prog S ε β) : p >>= f = p.bind f := rfl
@[simp] theorem throw_eq_fail (e : ε) : (throw e : Prog S ε α) = fail e := rfl
@[simp] theorem tryCatch_eq (p : Prog S ε α) (f : ε → Prog S ε α) :
    tryCatch p f = p.catching f := rfl

@[simp] theorem done_bind (a : α) (f : α → Prog S ε β) : (done a).bind f = f a := rfl
@[simp] theorem fail_bind (e : ε) (f : α → Prog S ε β) : (fail e).bind f = fail e := rfl
@[simp] theorem call_bind (op : S.Op) (next : S.Ans op → Prog S ε α) (f : α → Prog S ε β) :
    (call op next).bind f = call op fun a => (next a).bind f := rfl

theorem bind_assoc (p : Prog S ε α) (f : α → Prog S ε β) (g : β → Prog S ε γ) :
    (p.bind f).bind g = p.bind fun a => (f a).bind g := by
  induction p with
  | done a => rfl
  | fail e => rfl
  | call op next ih => simp only [call_bind, ih]

/-- A program over one signature as a program over another one, which stands in for each call. -/
def embed {S' : Signature} (f : (op : S.Op) → Prog S' ε (S.Ans op)) : Prog S ε α → Prog S' ε α
  | done a => done a
  | fail e => fail e
  | call op next => (f op).bind fun a => (next a).embed f

end Prog

namespace Prog

/-- The answers of a program run for each item in turn. -/
def traverse (f : α → Prog S ε β) : List α → Prog S ε (List β)
  | [] => done []
  | a :: as => (f a).bind fun b => (traverse f as).bind fun bs => done (b :: bs)

/-- A program run for each item in turn, for what it does. -/
def forEach (f : α → Prog S ε Unit) : List α → Prog S ε Unit
  | [] => done ()
  | a :: as => (f a).bind fun _ => forEach f as

end Prog

/-! ## One attempt -/

/-- What each call does to the store, given one input from outside. -/
def Handler (S : Signature) (W I : Type) :=
  (op : S.Op) → I → W → S.Ans op × W

/-- An attempt that runs undisturbed: the calls take the inputs of the stream one by one. The
leftover stream is returned, so that a caller can go on with it. -/
def Prog.run (h : Handler S W I) : Prog S ε α → (Nat → I) → W → Except ε α × (Nat → I) × W
  | .done a, s, w => (.ok a, s, w)
  | .fail e, s, w => (.error e, s, w)
  | .call op next, s, w =>
    ((next (h op (s 0) w).1).run h) (fun n => s (n + 1)) (h op (s 0) w).2

theorem Prog.run_bind {h : Handler S W I} {p : Prog S ε α} {f : α → Prog S ε β} {s s' : Nat → I}
    {w w' : W} {a : α} (hp : p.run h s w = (.ok a, s', w')) :
    (p.bind f).run h s w = (f a).run h s' w' := by
  induction p generalizing s w with
  | done b =>
    obtain ⟨hvalue, hrest⟩ := Prod.mk.inj hp
    obtain ⟨rfl, rfl⟩ := Prod.mk.inj hrest
    rw [Except.ok.inj hvalue]
    rfl
  | fail e => exact nomatch (Prod.mk.inj hp).1
  | call op next ih => exact ih _ hp

/-! ## Weakest preconditions under interference -/

/-- What surrounds a program while it runs: how the others may move the store between two of its
calls, and which inputs the outside may give. -/
structure Surround (W I : Type) where
  moves : W → W → Prop
  admits : I → Prop

/-- Nobody else moves the store. -/
def Surround.alone (admits : I → Prop) : Surround W I :=
  ⟨fun w w' => w' = w, admits⟩

section Wp

variable (h : Handler S W I) (E : Surround W I) (G : S.Op → W → W → Prop)

/-- From `w` the program keeps to `G` at each of its calls, whatever the others do and the outside
answers; it returns only in `Q` and raises only in `X`. -/
def wp (Q : α → W → Prop) (X : ε → W → Prop) : Prog S ε α → W → Prop
  | .done a, w => Q a w
  | .fail e, w => X e w
  | .call op next, w => ∀ w', E.moves w w' → ∀ i, E.admits i →
      G op w' (h op i w').2 ∧ wp Q X (next (h op i w').1) (h op i w').2

variable {h E G} {Q Q' : α → W → Prop} {X X' : ε → W → Prop} {w : W}

@[simp] theorem wp_done {a : α} : wp h E G Q X (.done a) w ↔ Q a w := Iff.rfl

@[simp] theorem wp_fail {e : ε} : wp h E G Q X (.fail e) w ↔ X e w := Iff.rfl

theorem wp_call {op : S.Op} {next : S.Ans op → Prog S ε α} :
    wp h E G Q X (.call op next) w ↔ ∀ w', E.moves w w' → ∀ i, E.admits i →
      G op w' (h op i w').2 ∧ wp h E G Q X (next (h op i w').1) (h op i w').2 := Iff.rfl

@[simp] theorem wp_bind {p : Prog S ε α} {f : α → Prog S ε β} {Q : β → W → Prop} :
    wp h E G Q X (p.bind f) w ↔ wp h E G (fun a w => wp h E G Q X (f a) w) X p w := by
  induction p generalizing w with
  | done a => rfl
  | fail e => rfl
  | call op next ih => simp only [Prog.call_bind, wp_call, ih]

@[simp] theorem wp_catching {p : Prog S ε α} {f : ε → Prog S ε α} :
    wp h E G Q X (p.catching f) w ↔ wp h E G Q (fun e w => wp h E G Q X (f e) w) p w := by
  induction p generalizing w with
  | done a => rfl
  | fail e => rfl
  | call op next ih => simp only [Prog.catching, wp_call, ih]

@[simp] theorem wp_result {ε' : Type} {p : Prog S ε α} {Q : Except ε α → W → Prop}
    {X : ε' → W → Prop} :
    wp h E G Q X p.result w ↔ wp h E G (fun a => Q (.ok a)) (fun e => Q (.error e)) p w := by
  induction p generalizing w with
  | done a => rfl
  | fail e => rfl
  | call op next ih => simp only [Prog.result, wp_call, ih]

@[simp] theorem wp_ite {c : Prop} [Decidable c] {p q : Prog S ε α} :
    wp h E G Q X (if c then p else q) w ↔
      (c → wp h E G Q X p w) ∧ (¬ c → wp h E G Q X q w) := by
  split <;> simp_all

/-- A program does no more than its postconditions say: weaker ones hold too. -/
theorem wp_mono {p : Prog S ε α} (hp : wp h E G Q X p w)
    (hQ : ∀ a w, Q a w → Q' a w) (hX : ∀ e w, X e w → X' e w) : wp h E G Q' X' p w := by
  induction p generalizing w with
  | done a => exact hQ a w hp
  | fail e => exact hX e w hp
  | call op next ih =>
    intro w' hw' i hi
    obtain ⟨hG, hnext⟩ := hp w' hw' i hi
    exact ⟨hG, ih _ hnext⟩

/-- The rule of a traversal: `P seen bs` relates the items done so far to their answers. -/
theorem wp_traverse {f : α → Prog S ε β} {P : List α → List β → W → Prop}
    {X : ε → W → Prop} {as seen : List α} {bs : List β}
    (step : ∀ seen bs, ∀ a ∈ as, ∀ w, P seen bs w →
      wp h E G (fun b w => P (seen ++ [a]) (bs ++ [b]) w) X (f a) w) (hP : P seen bs w) :
    wp h E G (fun rest w => P (seen ++ as) (bs ++ rest) w) X (Prog.traverse f as) w := by
  induction as generalizing seen bs w with
  | nil => simpa [Prog.traverse] using hP
  | cons a as ih =>
    rw [Prog.traverse, wp_bind]
    refine wp_mono (step seen bs a List.mem_cons_self w hP) (fun b w hb => ?_) fun _ _ hx => hx
    rw [wp_bind]
    have hrest := ih (fun seen bs a ha => step seen bs a (List.mem_cons_of_mem _ ha)) hb
    exact wp_mono hrest (fun rest w hrest => by simpa using hrest) fun _ _ hx => hx

/-- The rule of a whole traversal. -/
theorem wp_traverse_all {f : α → Prog S ε β} {P : List α → List β → W → Prop}
    {X : ε → W → Prop} {as : List α}
    (step : ∀ seen bs, ∀ a ∈ as, ∀ w, P seen bs w →
      wp h E G (fun b w => P (seen ++ [a]) (bs ++ [b]) w) X (f a) w) (hP : P [] [] w) :
    wp h E G (fun bs w => P as bs w) X (Prog.traverse f as) w :=
  wp_traverse step hP

/-- The rule of consequence with everything that may change at once: a program that is safe among
`E` is safe among surroundings that do less, and keeps to whatever `G` implies. -/
theorem wp_weaken {E' : Surround W I} {G' : S.Op → W → W → Prop} {p : Prog S ε α}
    (hp : wp h E G Q X p w) (hmoves : ∀ w w', E'.moves w w' → E.moves w w')
    (hadmits : ∀ i, E'.admits i → E.admits i) (hG : ∀ op w w', G op w w' → G' op w w') :
    wp h E' G' Q X p w := by
  induction p generalizing w with
  | done a => exact hp
  | fail e => exact hp
  | call op next ih =>
    intro w' hw' i hi
    obtain ⟨hg, hnext⟩ := hp w' (hmoves w w' hw') i (hadmits i hi)
    exact ⟨hG op _ _ hg, ih _ hnext⟩

/-- Two facts shown apart hold together. -/
theorem wp_and {G' : S.Op → W → W → Prop} {p : Prog S ε α}
    (hp : wp h E G Q X p w) (hp' : wp h E G' Q' X' p w) :
    wp h E (fun op w w' => G op w w' ∧ G' op w w') (fun a w => Q a w ∧ Q' a w)
      (fun e w => X e w ∧ X' e w) p w := by
  induction p generalizing w with
  | done a => exact ⟨hp, hp'⟩
  | fail e => exact ⟨hp, hp'⟩
  | call op next ih =>
    intro w' hw' i hi
    obtain ⟨hG, hnext⟩ := hp w' hw' i hi
    obtain ⟨hG', hnext'⟩ := hp' w' hw' i hi
    exact ⟨⟨hG, hG'⟩, ih _ hnext hnext'⟩

/-- What every call of a program keeps, and each move of the others too, holds where it ends. -/
theorem wp_keeps {R : W → W → Prop} {p : Prog S ε α} (hp : wp h E G Q X p w) (hrefl : ∀ w, R w w)
    (htrans : ∀ w w' w'', R w w' → R w' w'' → R w w'') (hmoves : ∀ w w', E.moves w w' → R w w')
    (hG : ∀ op w w', G op w w' → R w w') :
    wp h E G (fun a w' => R w w' ∧ Q a w') (fun e w' => R w w' ∧ X e w') p w := by
  induction p generalizing w with
  | done a => exact ⟨hrefl w, hp⟩
  | fail e => exact ⟨hrefl w, hp⟩
  | call op next ih =>
    intro w' hw' i hi
    obtain ⟨hcall, hnext⟩ := hp w' hw' i hi
    have hstep : R w (h op i w').2 := htrans _ _ _ (hmoves w w' hw') (hG _ _ _ hcall)
    exact ⟨hcall, wp_mono (ih _ hnext) (fun a w'' ha => ⟨htrans _ _ _ hstep ha.1, ha.2⟩)
      fun e w'' he => ⟨htrans _ _ _ hstep he.1, he.2⟩⟩

/-- What is known of a program stays known while the others move, if two moves make one and the
postconditions stay true. -/
theorem wp_stable {p : Prog S ε α} {w' : W} (hp : wp h E G Q X p w)
    (hmoves : ∀ w'', E.moves w' w'' → E.moves w w'') (hQ : ∀ a, Q a w → Q a w')
    (hX : ∀ e, X e w → X e w') : wp h E G Q X p w' := by
  cases p with
  | done a => exact hQ a hp
  | fail e => exact hX e hp
  | call op next => exact fun w'' hw'' => hp w'' (hmoves w'' hw'')

/-- Adequacy for an undisturbed attempt: if standing still is a move, what `wp` promises holds of
the run on every admitted stream of inputs. -/
theorem run_of_wp {p : Prog S ε α} (hp : wp h E G Q X p w) (hrefl : ∀ w, E.moves w w)
    {s : Nat → I} (hs : ∀ n, E.admits (s n)) :
    (∀ a, (p.run h s w).1 = .ok a → Q a (p.run h s w).2.2) ∧
      ∀ e, (p.run h s w).1 = .error e → X e (p.run h s w).2.2 := by
  induction p generalizing w s with
  | done a => exact ⟨by rintro _ ⟨⟩; exact hp, by rintro _ ⟨⟩⟩
  | fail e => exact ⟨by rintro _ ⟨⟩, by rintro _ ⟨⟩; exact hp⟩
  | call op next ih =>
    exact ih _ (hp w (hrefl w) (s 0) (hs 0)).2 fun n => hs (n + 1)

end Wp

/-! ## The calls a program makes -/

/-- Every call that the program makes passes a test, and every value that it returns another one, as
long as the answers to its calls are among `A`. -/
def Prog.Makes (A : (op : S.Op) → S.Ans op → Prop) (P : S.Op → Prop) (Q : α → Prop) :
    Prog S ε α → Prop
  | .done a => Q a
  | .fail _ => True
  | .call op next => P op ∧ ∀ a, A op a → (next a).Makes A P Q

namespace Prog

variable {A A' : (op : S.Op) → S.Ans op → Prop} {P P' : S.Op → Prop} {Q : α → Prop}

theorem Makes.bind {p : Prog S ε α} {f : α → Prog S ε β} {R : β → Prop} (hp : p.Makes A P Q)
    (hf : ∀ a, Q a → (f a).Makes A P R) : (p.bind f).Makes A P R := by
  induction p with
  | done a => exact hf a hp
  | fail e => trivial
  | call op next ih => exact ⟨hp.1, fun a ha => ih a (hp.2 a ha)⟩

theorem Makes.catching {p : Prog S ε α} {f : ε → Prog S ε α} (hp : p.Makes A P Q)
    (hf : ∀ e, (f e).Makes A P Q) : (p.catching f).Makes A P Q := by
  induction p with
  | done a => exact hp
  | fail e => exact hf e
  | call op next ih => exact ⟨hp.1, fun a ha => ih a (hp.2 a ha)⟩

theorem Makes.mono {p : Prog S ε α} {Q' : α → Prop} (hp : p.Makes A P Q)
    (hA : ∀ op a, A' op a → A op a) (hP : ∀ op, P op → P' op) (hQ : ∀ a, Q a → Q' a) :
    p.Makes A' P' Q' := by
  induction p with
  | done a => exact hQ a hp
  | fail e => trivial
  | call op next ih => exact ⟨hP op hp.1, fun a ha => ih a (hp.2 a (hA op a ha))⟩

/-- What the stand-ins of all calls make, the embedded program makes. -/
theorem Makes.embed {S' : Signature} {A' : (op : S'.Op) → S'.Ans op → Prop} {P' : S'.Op → Prop}
    {f : (op : S.Op) → Prog S' ε (S.Ans op)} (hf : ∀ op, (f op).Makes A' P' fun _ => True)
    (p : Prog S ε α) : (p.embed f).Makes A' P' fun _ => True := by
  induction p with
  | done a => trivial
  | fail e => trivial
  | call op next ih => exact (hf op).bind fun a _ => ih a

theorem Makes.traverse {f : α → Prog S ε β} {as : List α} {R : β → Prop}
    (hf : ∀ a ∈ as, (f a).Makes A P R) : (traverse f as).Makes A P fun bs => ∀ b ∈ bs, R b := by
  induction as with
  | nil => exact fun b hb => absurd hb List.not_mem_nil
  | cons a as ih =>
    refine (hf a List.mem_cons_self).bind fun b hb => ?_
    refine (ih fun a' ha' => hf a' (List.mem_cons_of_mem a ha')).bind fun bs hbs => ?_
    exact List.forall_mem_cons.mpr ⟨hb, hbs⟩

theorem Makes.forEach {f : α → Prog S ε Unit} {as : List α} {R : Unit → Prop}
    (hf : ∀ a ∈ as, (f a).Makes A P R) : (forEach f as).Makes A P fun _ => True := by
  induction as with
  | nil => trivial
  | cons a as ih =>
    exact (hf a List.mem_cons_self).bind fun _ _ =>
      ih fun a' ha' => hf a' (List.mem_cons_of_mem a ha')

end Prog

/-- A program whose calls pass a test keeps to what such calls guarantee, whoever disturbs it. -/
theorem wp_of_makes {h : Handler S W I} {E : Surround W I} {G : S.Op → W → W → Prop}
    {A : (op : S.Op) → S.Ans op → Prop} {P : S.Op → Prop} {Q : α → Prop} {p : Prog S ε α}
    (hp : p.Makes A P Q) (hA : ∀ op i w, E.admits i → A op (h op i w).1)
    (hG : ∀ op i w, P op → E.admits i → G op w (h op i w).2) {w : W} :
    wp h E G (fun a _ => Q a) (fun _ _ => True) p w := by
  induction p generalizing w with
  | done a => exact hp
  | fail e => trivial
  | call op next ih =>
    exact fun w' _ i hi => ⟨hG op i w' hp.1 hi, ih _ (hp.2 _ (hA op i w' hi))⟩

/-- What each call of a program preserves, and each move of the others too, the program preserves. -/
theorem wp_keeps_of_makes {h : Handler S W I} {E : Surround W I}
    {A : (op : S.Op) → S.Ans op → Prop} {P : S.Op → Prop} {Q : α → Prop} {R : W → W → Prop}
    (hrefl : ∀ w, R w w) (htrans : ∀ w w' w'', R w w' → R w' w'' → R w w'')
    (hmoves : ∀ w w', E.moves w w' → R w w') {p : Prog S ε α}
    (hp : p.Makes A P Q) (hA : ∀ op i w, E.admits i → A op (h op i w).1)
    (hR : ∀ op i w, P op → E.admits i → R w (h op i w).2) {w : W} :
    wp h E (fun _ _ _ => True) (fun a w' => R w w' ∧ Q a) (fun _ w' => R w w') p w := by
  induction p generalizing w with
  | done a => exact ⟨hrefl w, hp⟩
  | fail e => exact hrefl w
  | call op next ih =>
    intro w' hw' i hi
    have hstep : R w (h op i w').2 := htrans _ _ _ (hmoves w w' hw') (hR op i w' hp.1 hi)
    refine ⟨trivial, wp_mono (ih _ (hp.2 _ (hA op i w' hi))) ?_ ?_⟩
    · exact fun _ _ hw => ⟨htrans _ _ _ hstep hw.1, hw.2⟩
    · exact fun _ _ hw => htrans _ _ _ hstep hw

/-- What each call of an undisturbed program preserves, the program preserves. -/
theorem wp_alone_of_makes {h : Handler S W I} {admits : I → Prop}
    {A : (op : S.Op) → S.Ans op → Prop} {P : S.Op → Prop} {Q : α → Prop} {R : W → W → Prop}
    (hrefl : ∀ w, R w w) (htrans : ∀ w w' w'', R w w' → R w' w'' → R w w'') {p : Prog S ε α}
    (hp : p.Makes A P Q) (hA : ∀ op i w, admits i → A op (h op i w).1)
    (hR : ∀ op i w, P op → admits i → R w (h op i w).2) {w : W} :
    wp h (.alone admits) (fun _ _ _ => True) (fun a w' => R w w' ∧ Q a) (fun _ w' => R w w') p w := by
  refine wp_keeps_of_makes hrefl htrans ?_ hp hA hR
  intro w w' hw'
  obtain rfl : w' = w := hw'
  exact hrefl w'

/-- The rule for a call of an undisturbed program. -/
theorem wp_alone_ofCall {h : Handler S W I} {admits : I → Prop} {op : S.Op}
    {Q : S.Ans op → W → Prop} {X : ε → W → Prop} {w : W} :
    wp h (.alone admits) (fun _ _ _ => True) Q X (Prog.ofCall op) w ↔
      ∀ i, admits i → Q (h op i w).1 (h op i w).2 :=
  ⟨fun hw i hi => (hw w rfl i hi).2, by rintro hw _ rfl i hi; exact ⟨trivial, hw i hi⟩⟩

end Atomic
