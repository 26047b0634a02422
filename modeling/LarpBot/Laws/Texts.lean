import LarpBot.Application.NotificationHelpers
import Mathlib

/-!
# Texts without white space

What the validators strip from a text, and which texts they leave alone.
-/

namespace LarpBot

open List

variable {c : Char} {text : String} {before body after : List Char}

/-- A letter or a digit of ASCII, or a sign that names and links are written with. -/
def isPlainCharacter (c : Char) : Bool :=
  isWordCharacter ['-', '.', '/', ':', '@'] c

theorem isPlainCharacter_of_isPythonSpace (h : isPythonSpace c = true) : isPlainCharacter c = false := by
  rcases Bool.or_eq_true_iff.mp h with hplain | hother
  · simp only [Char.isWhitespace, Bool.or_eq_true, decide_eq_true_eq] at hplain
    rcases hplain with ((rfl | rfl) | rfl) | rfl <;> decide
  · have hall (hlist : all _ (fun d => !isPlainCharacter d) = true) :=
      all_eq_true.mp hlist c (of_decide_eq_true hother)
    simpa using hall (by decide)

theorem isPythonSpace_of_isPlainCharacter (h : isPlainCharacter c = true) : isPythonSpace c = false := by
  by_contra hspace
  rw [isPlainCharacter_of_isPythonSpace ((Bool.not_eq_false _).mp hspace)] at h
  exact absurd h Bool.false_ne_true

theorem dropWhile_all {p : Char → Bool} (hbefore : ∀ c ∈ before, p c = true)
    (hbody : body.head?.any (!p ·) = true) : (before ++ body).dropWhile p = body := by
  rw [dropWhile_append_of_pos hbefore]
  cases body with
  | nil => rfl
  | cons c body => exact dropWhile_cons_of_neg (by simpa using hbody)

/-- White space around a text is stripped. -/
theorem pythonStrip_around {text : String} (htext : text.toList = before ++ (body ++ after))
    (hbefore : ∀ c ∈ before, isPythonSpace c = true) (hafter : ∀ c ∈ after, isPythonSpace c = true)
    (hfirst : body.head?.any (!isPythonSpace ·) = true)
    (hlast : body.getLast?.any (!isPythonSpace ·) = true) : pythonStrip text = body := by
  have hhead : (body ++ after).head?.any (!isPythonSpace ·) = true := by
    cases body with
    | nil => exact absurd hfirst Bool.false_ne_true
    | cons c body => exact hfirst
  have hback : ∀ c ∈ after.reverse, isPythonSpace c = true := fun c hc => hafter c (mem_reverse.mp hc)
  rw [pythonStrip, htext, dropWhile_all hbefore hhead, reverse_append, dropWhile_all hback,
    reverse_reverse]
  rwa [head?_reverse]

/-- A text without white space is left alone. -/
theorem pythonStrip_plain (h : ∀ c ∈ text.toList, isPlainCharacter c = true) :
    pythonStrip text = text.toList := by
  have hnone {cs : List Char} (hcs : ∀ c ∈ cs, c ∈ text.toList) : cs.dropWhile isPythonSpace = cs := by
    cases cs with
    | nil => rfl
    | cons c cs =>
      have hc := isPythonSpace_of_isPlainCharacter (h c (hcs c mem_cons_self))
      exact dropWhile_cons_of_neg (by simp [hc])
  rw [pythonStrip, hnone fun c hc => hc, hnone fun c hc => mem_reverse.mp hc, reverse_reverse]

end LarpBot
