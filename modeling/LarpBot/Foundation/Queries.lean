import LarpBot.Foundation.Program
import LarpBot.Foundation.Table

/-!
# Conditional queries

A condition of a query is true, false or unknown: what is compared with a NULL is unknown. A query
touches the rows for which its condition is true; unknown is not enough. A condition that names a key
touches one row at most, so the query is a rewrite of that row if there is one and it passes the rest
(`update_of_key`).

Two stores that answer a call alike, whenever it meets a demand, answer a sequence of calls alike if
each one meets the demand when it comes (`callAll_agree`).
-/

namespace Atomic

/-! ## Conditions -/

/-- What a condition comes to; `none` is unknown. -/
abbrev Truth := Option Bool

namespace Truth

variable {α : Type} [DecidableEq α]

/-- A condition that is never unknown, such as one on columns that are not nullable. -/
def is (p : Prop) [Decidable p] : Truth :=
  some (decide p)

/-- `a IS NULL` -/
def isNull (a : Option α) : Truth :=
  some a.isNone

/-- `a IS NOT NULL` -/
def notNull (a : Option α) : Truth :=
  some a.isSome

/-- `a = b` -/
def equal : Option α → Option α → Truth
  | some a, some b => some (decide (a = b))
  | _, _ => none

/-- `a != b` -/
def unequal : Option α → Option α → Truth
  | some a, some b => some (decide (a ≠ b))
  | _, _ => none

def and : Truth → Truth → Truth
  | some false, _ | _, some false => some false
  | some true, some true => some true
  | _, _ => none

def or : Truth → Truth → Truth
  | some true, _ | _, some true => some true
  | some false, some false => some false
  | _, _ => none

/-- The condition is met. -/
def holds : Truth → Bool
  | some true => true
  | _ => false

@[simp] theorem holds_is (p : Prop) [Decidable p] : (is p).holds = decide p := by
  unfold is
  cases decide p <;> rfl

omit [DecidableEq α] in
@[simp] theorem holds_isNull (a : Option α) : (isNull a).holds = a.isNone := by
  cases a <;> rfl

omit [DecidableEq α] in
@[simp] theorem holds_notNull (a : Option α) : (notNull a).holds = a.isSome := by
  cases a <;> rfl

@[simp] theorem holds_and (s t : Truth) : (s.and t).holds = (s.holds && t.holds) := by
  rcases s with - | - | - <;> rcases t with - | - | - <;> rfl

@[simp] theorem holds_or (s t : Truth) : (s.or t).holds = (s.holds || t.holds) := by
  rcases s with - | - | - <;> rcases t with - | - | - <;> rfl

@[simp] theorem holds_equal_some (a : Option α) (b : α) :
    (equal a (some b)).holds = decide (a = some b) := by
  cases a with
  | none => rfl
  | some a =>
    by_cases h : a = b <;> simp [equal, h, holds]

@[simp] theorem holds_unequal_some (a b : α) :
    (unequal (some a) (some b)).holds = decide (a ≠ b) := by
  by_cases h : a = b <;> simp [unequal, h, holds]

omit [DecidableEq α] in
@[simp] theorem holds_none : holds none = false := rfl

/-- One of the two is NULL and the other one is not, or both are there and differ. -/
def differs (a b : Option α) : Truth :=
  ((isNull a).and (notNull b)).or (((notNull a).and (isNull b)).or (unequal a b))

@[simp] theorem holds_differs (a b : Option α) : (differs a b).holds = decide (a ≠ b) := by
  cases a with
  | none => cases b <;> simp [differs, unequal]
  | some a =>
    cases b with
    | none => simp [differs]
    | some b => simp [differs]

end Truth

/-! ## Queries -/

namespace Table

variable {V K : Type} {key : V → K}

/-- `UPDATE … SET … WHERE …` -/
def update (t : Table key) (p : V → Truth) (f : V → V)
    (hf : ∀ v, key (f v) = key v := by intro _; rfl) : Table key :=
  t.mapRows (fun v => if (p v).holds then f v else v) fun v => by
    by_cases h : (p v).holds <;> simp [h, hf]

/-- Whether a query returns a row: `RETURNING`. -/
def touches (t : Table key) (p : V → Truth) : Bool :=
  t.rows.any fun v => (p v).holds

/-- `DELETE FROM … WHERE …` -/
def delete (t : Table key) (p : V → Truth) : Table key :=
  t.filter fun v => ¬ (p v).holds

@[simp] theorem rows_update (t : Table key) (p : V → Truth) (f hf) :
    (t.update p f hf).rows = t.rows.map fun v => if (p v).holds then f v else v := rfl

/-- A condition that no row meets. -/
theorem update_of_untouched {t : Table key} {p : V → Truth} (h : ∀ v ∈ t.rows, (p v).holds = false)
    (f hf) : t.update p f hf = t := by
  ext1
  rw [rows_update]
  refine (List.map_congr_left fun v hv => ?_).trans (List.map_id _)
  rw [h v hv]
  rfl

variable [DecidableEq K] {t : Table key} {k : K} {p : V → Truth} {q : V → Bool}

/-- A condition on the row under a key. -/
theorem update_of_key (hp : ∀ v, (p v).holds = (decide (key v = k) && q v)) (f : V → V)
    (hf : ∀ v, key (f v) = key v) :
    t.update p f hf = if (t.find? k).any q then t.modify k f hf else t := by
  ext1
  split
  · next hfound =>
    obtain ⟨v, hv, hq⟩ := (Option.any_eq_true _ _).mp hfound
    rw [rows_update, rows_modify]
    apply List.map_congr_left
    intro u hu
    by_cases hk : key u = k
    · have hsame : u = v := eq_of_key_eq hu (mem_of_find? hv) (hk.trans (key_of_find? hv).symm)
      rw [hp, hsame, hq]
      simp
    · rw [hp]
      simp [hk]
  · next hfound =>
    rw [update_of_untouched]
    intro u hu
    rw [hp]
    by_cases hk : key u = k
    · have hfind : t.find? k = some u := hk ▸ find?_key hu
      rw [hfind] at hfound
      simpa [hk] using hfound
    · simp [hk]

theorem touches_of_key (hp : ∀ v, (p v).holds = (decide (key v = k) && q v)) :
    t.touches p = (t.find? k).any q := by
  rw [Bool.eq_iff_iff, touches, List.any_eq_true, Option.any_eq_true]
  constructor
  · rintro ⟨v, hv, hholds⟩
    rw [hp, Bool.and_eq_true] at hholds
    exact ⟨v, of_decide_eq_true hholds.1 ▸ find?_key hv, hholds.2⟩
  · rintro ⟨v, hv, hq⟩
    refine ⟨v, mem_of_find? hv, ?_⟩
    rw [hp, hq, key_of_find? hv]
    simp

theorem delete_of_key (hp : ∀ v, (p v).holds = decide (key v = k)) : t.delete p = t.erase k := by
  ext1
  show t.rows.filter _ = t.rows.filter _
  apply List.filter_congr
  intro v _
  rw [hp]
  simp

/-- To put a changed row under its key is to rewrite it there. -/
theorem insert_eq_modify {v : V} (h : t.find? k = some v) (f : V → V) (hf : ∀ v, key (f v) = key v) :
    t.insert (f v) = t.modify k f hf := by
  have hkey : key (f v) = k := (hf v).trans (key_of_find? h)
  ext1
  rw [rows_insert_of_some (u := v) (by rw [hkey, h]), rows_modify, hkey]
  apply List.map_congr_left
  intro u hu
  by_cases hk : key u = k
  · have hsame : u = v := eq_of_key_eq hu (mem_of_find? h) (hk.trans (key_of_find? h).symm)
    rw [if_pos hk, if_pos hk, hsame]
  · rw [if_neg hk, if_neg hk]

theorem insert_eq_insertNew {v : V} (h : t.find? (key v) = none) : t.insert v = t.insertNew v := by
  ext1
  rw [rows_insert_of_none h, rows_insertNew_of_none h]

end Table

/-! ## Two stores -/

section Calls

variable {S : Signature} {W I : Type}

/-- What a store answers to calls, one after another, and what it is after them. -/
def callAll (h : Handler S W I) : List (S.Op × I) → W → List ((op : S.Op) × S.Ans op) × W
  | [], w => ([], w)
  | (op, i) :: calls, w =>
    let rest := callAll h calls (h op i w).2
    (⟨op, (h op i w).1⟩ :: rest.1, rest.2)

/-- Each call meets a demand when it comes. -/
def CallsMeet (h : Handler S W I) (meets : S.Op → I → W → Prop) : List (S.Op × I) → W → Prop
  | [], _ => True
  | (op, i) :: calls, w => meets op i w ∧ CallsMeet h meets calls (h op i w).2

/-- Where two stores do the same at each call that meets the demand, they do the same all along. -/
theorem callAll_agree {h h' : Handler S W I} {meets : S.Op → I → W → Prop} {keeps : W → Prop}
    (hstep : ∀ op i w, keeps w → meets op i w → h' op i w = h op i w ∧ keeps (h op i w).2)
    {calls : List (S.Op × I)} {w : W} (hw : keeps w) (hcalls : CallsMeet h meets calls w) :
    callAll h' calls w = callAll h calls w := by
  induction calls generalizing w with
  | nil => rfl
  | cons call calls ih =>
    obtain ⟨op, i⟩ := call
    obtain ⟨hsame, hkept⟩ := hstep op i w hw hcalls.1
    rw [callAll, callAll, hsame, ih hkept hcalls.2]

end Calls

end Atomic
