import LarpBot.Foundation.Program

/-!
# How programs end

What a program may call, return and raise, when the answers to its calls are among some that are
given. `Prog.Ends` is shown along the text of a program; what it says of every call, value and failure
is read off by `Ends.called`, `Ends.returned` and `Ends.raised`.
-/

namespace Atomic

variable {S : Signature} {ε α β : Type} (A : (op : S.Op) → S.Ans op → Prop)

namespace Prog

/-- The program returns a value, after some answers to its calls. -/
inductive MayReturn : Prog S ε α → α → Prop
  | done (a : α) : MayReturn (.done a) a
  | call {op : S.Op} {next : S.Ans op → Prog S ε α} {answer : S.Ans op} {a : α} :
    A op answer → MayReturn (next answer) a → MayReturn (.call op next) a

/-- The program raises an error, after some answers to its calls. -/
inductive MayRaise : Prog S ε α → ε → Prop
  | fail (e : ε) : MayRaise (.fail e) e
  | call {op : S.Op} {next : S.Ans op → Prog S ε α} {answer : S.Ans op} {e : ε} :
    A op answer → MayRaise (next answer) e → MayRaise (.call op next) e

/-- The program makes a call, after some answers to the calls before. -/
inductive MayCall : Prog S ε α → S.Op → Prop
  | here (op : S.Op) (next : S.Ans op → Prog S ε α) : MayCall (.call op next) op
  | later {op op' : S.Op} {next : S.Ans op → Prog S ε α} {answer : S.Ans op} :
    A op answer → MayCall (next answer) op' → MayCall (.call op next) op'

/-- Every call that the program makes passes a test, every value that it returns another one, and every
error that it raises a third one. -/
def Ends (P : S.Op → Prop) (Q : α → Prop) (X : ε → Prop) : Prog S ε α → Prop
  | .done a => Q a
  | .fail e => X e
  | .call op next => P op ∧ ∀ answer, A op answer → (next answer).Ends P Q X

namespace Ends

variable {A} {P P' : S.Op → Prop} {Q Q' : α → Prop} {X X' : ε → Prop} {p : Prog S ε α}

theorem bind {f : α → Prog S ε β} {R : β → Prop} (hp : p.Ends A P Q X)
    (hf : ∀ a, Q a → (f a).Ends A P R X) : (p.bind f).Ends A P R X := by
  induction p with
  | done a => exact hf a hp
  | fail e => exact hp
  | call op next ih => exact ⟨hp.1, fun answer hanswer => ih answer (hp.2 answer hanswer)⟩

theorem mono (hp : p.Ends A P Q X) (hP : ∀ op, P op → P' op) (hQ : ∀ a, Q a → Q' a)
    (hX : ∀ e, X e → X' e) : p.Ends A P' Q' X' := by
  induction p with
  | done a => exact hQ a hp
  | fail e => exact hX e hp
  | call op next ih => exact ⟨hP op hp.1, fun answer hanswer => ih answer (hp.2 answer hanswer)⟩

theorem returned (hp : p.Ends A P Q X) {a : α} (ha : p.MayReturn A a) : Q a := by
  induction ha with
  | done a => exact hp
  | call hanswer _ ih => exact ih (hp.2 _ hanswer)

theorem raised (hp : p.Ends A P Q X) {e : ε} (he : p.MayRaise A e) : X e := by
  induction he with
  | fail e => exact hp
  | call hanswer _ ih => exact ih (hp.2 _ hanswer)

theorem called (hp : p.Ends A P Q X) {op : S.Op} (hop : p.MayCall A op) : P op := by
  induction hop with
  | here op next => exact hp.1
  | later hanswer _ ih => exact ih (hp.2 _ hanswer)

end Ends

end Prog

end Atomic
