import LarpBot.Application.Worker

/-!
# Rules for one attempt

`does admits Q X p w`: a program of the services that nobody disturbs, started in `w` with inputs
that pass `admits`, returns only in `Q` and fails only in `X`. It is `wp` over the storage with the
surroundings standing still. The rules below follow the combinators that the services are written
with, so a law about a service is proved along its text.
-/

namespace LarpBot

open Atomic Act

/-- What an undisturbed program ends with. -/
abbrev does {α : Type} (admits : Input → Prop) (Q : α → World → Prop) (X : Failure → World → Prop)
    (p : Act α) (w : World) : Prop :=
  wp storage (.alone admits) (fun _ _ _ => True) Q X p w

section Rules

variable {α β : Type} {admits : Input → Prop} {Q R : α → World → Prop}
  {X Y : Failure → World → Prop} {w : World}

theorem does_mono {p : Act α} (hp : does admits R Y p w) (hQ : ∀ a w, R a w → Q a w)
    (hX : ∀ e w, Y e w → X e w) : does admits Q X p w :=
  wp_mono hp hQ hX

theorem does_and {p : Act α} (hp : does admits Q X p w) (hp' : does admits R Y p w) :
    does admits (fun a w => Q a w ∧ R a w) (fun e w => X e w ∧ Y e w) p w :=
  wp_weaken (wp_and hp hp') (fun _ _ h => h) (fun _ h => h) fun _ _ _ _ => trivial

/-- Sequencing: what the first part ends with is where the second starts. -/
theorem does_seq {p : Act α} {f : α → Act β} {Q : β → World → Prop} (hp : does admits R Y p w)
    (hX : ∀ e w, Y e w → X e w) (hf : ∀ a w, R a w → does admits Q X (f a) w) :
    does admits Q X (p >>= f) w :=
  wp_bind.mpr (wp_mono hp hf hX)

/-- A call and what follows it. -/
theorem does_call {c : Call} {f : c.Ans → Act β} {Q : β → World → Prop}
    (h : ∀ i, admits i → does admits Q X (f (c.perform i w).1) (c.perform i w).2) :
    does admits Q X (one c >>= f) w :=
  wp_bind.mpr (wp_alone_ofCall.mpr h)

theorem does_one {c : Call} {Q : c.Ans → World → Prop}
    (h : ∀ i, admits i → Q (c.perform i w).1 (c.perform i w).2) : does admits Q X (one c) w :=
  wp_alone_ofCall.mpr h

/-- A question to the outside that leaves no trace. -/
theorem does_outside {c : OutsideCall} {f : c.Ans → Act β} {Q : β → World → Prop}
    (hc : ∀ a, c.record a w = w) (h : ∀ i, admits i → does admits Q X (f (i c)) w) :
    does admits Q X (outside c >>= f) w :=
  does_call fun i hi => by
    show does admits Q X (f (i c)) (c.record (i c) w)
    rw [hc]
    exact h i hi

theorem does_users {c : UserCall} {f : c.Ans → Act β} {Q : β → World → Prop}
    (h : ∀ now, does admits Q X (f (c.perform now w.users).1)
      { w with users := (c.perform now w.users).2 }) :
    does admits Q X (users c >>= f) w :=
  does_call fun i _ => h (i .now)

theorem does_events {c : EventCall} {f : c.Ans → Act β} {Q : β → World → Prop}
    (h : ∀ now, does admits Q X (f (c.perform now w.events).1)
      { w with events := (c.perform now w.events).2, leaders := c.leadersAfter w.leaders }) :
    does admits Q X (events c >>= f) w :=
  does_call fun i _ => h (i .now)

theorem does_registrations {c : RegistrationCall} {f : c.Ans → Act β} {Q : β → World → Prop}
    (h : ∀ now, does admits Q X (f (c.perform now w.registrations).1)
      { w with registrations := (c.perform now w.registrations).2 }) :
    does admits Q X (registrations c >>= f) w :=
  does_call fun i _ => h (i .now)

theorem does_getEvent {eventId : EventId} {f : Option Event → Act β} {Q : β → World → Prop}
    (h : does admits Q X (f (w.events.get eventId)) w) :
    does admits Q X (events (.get eventId) >>= f) w :=
  does_events fun _ => h

theorem does_getUser {platform : Platform} {userId : Nat} {f : Option User → Act β}
    {Q : β → World → Prop} (h : does admits Q X (f (w.users.get platform userId)) w) :
    does admits Q X (users (.get platform userId) >>= f) w :=
  does_users fun _ => h

theorem does_findLinked {user : User} {f : Option User → Act β} {Q : β → World → Prop}
    (h : does admits Q X (f (w.users.findLinked user)) w) :
    does admits Q X (users (.findLinked user) >>= f) w :=
  does_users fun _ => h

theorem does_getRow {eventId : EventId} {key : ParticipantKey} {f : Option Registration → Act β}
    {Q : β → World → Prop} (h : does admits Q X (f (w.registrations.get eventId key)) w) :
    does admits Q X (registrations (.get eventId key) >>= f) w :=
  does_registrations fun _ => h

theorem does_listForEvent {eventId : EventId} {f : List Registration → Act β}
    {Q : β → World → Prop} (h : does admits Q X (f (w.registrations.listForEvent eventId)) w) :
    does admits Q X (registrations (.listForEvent eventId) >>= f) w :=
  does_registrations fun _ => h

theorem does_refuseIf {c : Bool} {text : String} {f : Unit → Act β} {Q : β → World → Prop}
    (hX : c = true → X (.domain ⟨.operationNotAllowed, text⟩) w)
    (h : c = false → does admits Q X (f ()) w) : does admits Q X (refuseIf c text >>= f) w := by
  cases c
  · exact h rfl
  · exact hX rfl

theorem does_whenever {c : Bool} {p : Act Unit} {f : Unit → Act β} {Q : β → World → Prop}
    (hp : c = true → does admits Q X (p >>= f) w) (h : c = false → does admits Q X (f ()) w) :
    does admits Q X (whenever c p >>= f) w := by
  cases c
  · exact h rfl
  · exact hp rfl

/-- An integration that answered does not raise. -/
theorem does_present {integration : String} {o : Option α} {a : α} {f : α → Act β}
    {Q : β → World → Prop} (ha : o = some a) (h : does admits Q X (f a) w) :
    does admits Q X (present integration o >>= f) w := by
  rw [ha]; exact h

/-- A repository method that did not raise. -/
theorem does_value {e : Except Fault α} {a : α} {f : α → Act β} {Q : β → World → Prop}
    (ha : e = .ok a) (h : does admits Q X (f a) w) : does admits Q X (value e >>= f) w := by
  rw [ha]; exact h

/-- A traversal keeps what each of its items keeps; `P seen answers` is what holds in between. -/
theorem does_traverse {f : α → Act β} {P : List α → List β → World → Prop} {as : List α}
    (hf : ∀ seen bs, ∀ a ∈ as, ∀ w, P seen bs w →
      does admits (fun b w => P (seen ++ [a]) (bs ++ [b]) w) X (f a) w) (h : P [] [] w) :
    does admits (P as) X (Prog.traverse f as) w := by
  simpa using wp_traverse hf h

/-- A program that nothing is asked of. -/
theorem does_anything {p : Act α} : does admits (fun _ _ => True) (fun _ _ => True) p w := by
  induction p generalizing w with
  | done a => trivial
  | fail e => trivial
  | call op next ih => exact fun w' _ i _ => ⟨trivial, ih _⟩

/-- What an undisturbed attempt does is what `does` says. -/
theorem run_of_does {p : Act α} (hp : does admits Q X p w) {s : Nat → Input}
    (hs : ∀ n, admits (s n)) :
    (∀ a, (p.run storage s w).1 = .ok a → Q a (p.run storage s w).2.2) ∧
      ∀ e, (p.run storage s w).1 = .error e → X e (p.run storage s w).2.2 :=
  run_of_wp hp (fun _ => rfl) hs

/-- A result that does not depend on how the attempt ends. -/
theorem end_of_does {p : Act α} {E : World → Prop}
    (hp : does admits (fun _ w => E w) (fun _ w => E w) p w) {s : Nat → Input}
    (hs : ∀ n, admits (s n)) : E (p.run storage s w).2.2 := by
  obtain ⟨hok, herror⟩ := run_of_does hp hs
  cases hr : (p.run storage s w).1 with
  | ok a => exact hok a hr
  | error e => exact herror e hr

end Rules

end LarpBot
