import Mathlib

/-!
# The Gregorian calendar

Dates, the number of each day (`Date.ordinal`, day 1 is the first of January of the year 1) and the
date of each number (`Date.ofOrdinal`), over all years. A `Stamp` is a second of a day, and an instant
counts seconds since the epoch.
-/

namespace Calendar

/-! ## Years and months -/

def isLeap (year : Int) : Bool :=
  year % 4 = 0 && (year % 100 ≠ 0 || year % 400 = 0)

def daysInYear (year : Int) : Nat :=
  if isLeap year then 366 else 365

/-- The days of all years before. -/
def daysBeforeYear (year : Int) : Int :=
  (year - 1) * 365 + (year - 1) / 4 - (year - 1) / 100 + (year - 1) / 400

def daysInMonth (leap : Bool) : Nat → Nat
  | 2 => if leap then 29 else 28
  | 4 | 6 | 9 | 11 => 30
  | _ => 31

/-- The days of the year before a month. -/
def daysBeforeMonth (leap : Bool) : Nat → Nat
  | 0 | 1 => 0
  | month + 2 => daysBeforeMonth leap (month + 1) + daysInMonth leap (month + 1)

/-- The latest month up to a given one that has begun on a day of the year, the first being day 0. -/
def monthUpTo (leap : Bool) (day : Nat) : Nat → Nat
  | 0 => 1
  | month + 1 => if daysBeforeMonth leap (month + 1) ≤ day then month + 1 else monthUpTo leap day month

theorem monthUpTo_fits {leap : Bool} {day month : Nat}
    (h : day < daysBeforeMonth leap (month + 1)) : 1 ≤ monthUpTo leap day month ∧
      monthUpTo leap day month ≤ max 1 month ∧
      daysBeforeMonth leap (monthUpTo leap day month) ≤ day ∧
      day < daysBeforeMonth leap (monthUpTo leap day month + 1) := by
  induction month with
  | zero => exact absurd h (Nat.not_lt_zero day)
  | succ month ih =>
    rw [monthUpTo]
    split
    · next hbegun => exact ⟨by omega, by omega, hbegun, h⟩
    · next hlater =>
      obtain ⟨hfirst, hlast, hbegun, hends⟩ := ih (by omega)
      exact ⟨hfirst, by omega, hbegun, hends⟩

/-- The number of the year of a day, and the day within that year. -/
def yearDay (ordinal : Int) : Int × Nat :=
  let day := ordinal - 1
  let era := day / 146097
  let ofEra := day % 146097
  let century := ofEra / 36524
  let ofCentury := ofEra % 36524
  let olympiad := ofCentury / 1461
  let ofOlympiad := ofCentury % 1461
  let year := ofOlympiad / 365
  let first := 400 * era + 100 * century + 4 * olympiad + year
  -- the last day of four years, or of four hundred
  if year = 4 ∨ century = 4 then (first, 365) else (first + 1, (ofOlympiad % 365).toNat)

/-- The days before a year, by the parts of its number. -/
theorem daysBeforeYear_parts (era : Int) {century olympiad : Int} (year : Int)
    (hcentury : 0 ≤ century ∧ century ≤ 3) (holympiad : 0 ≤ olympiad ∧ olympiad ≤ 24)
    (hyear : 0 ≤ year ∧ year ≤ 3) :
    daysBeforeYear (400 * era + 100 * century + 4 * olympiad + year + 1) =
      146097 * era + 36524 * century + 1461 * olympiad + 365 * year := by
  have hfour : (400 * era + 100 * century + 4 * olympiad + year) / 4 =
      100 * era + 25 * century + olympiad := by omega
  have hhundred : (400 * era + 100 * century + 4 * olympiad + year) / 100 = 4 * era + century := by
    omega
  have hera : (400 * era + 100 * century + 4 * olympiad + year) / 400 = era := by omega
  unfold daysBeforeYear
  rw [Int.add_sub_cancel, hfour, hhundred, hera]
  omega

theorem yearDay_fits (ordinal : Int) : (yearDay ordinal).2 < daysInYear (yearDay ordinal).1 ∧
    daysBeforeYear (yearDay ordinal).1 + (yearDay ordinal).2 + 1 = ordinal := by
  simp only [yearDay]
  generalize hera : (ordinal - 1) / 146097 = era
  generalize hofEra : (ordinal - 1) % 146097 = ofEra
  generalize hcentury : ofEra / 36524 = century
  generalize hofCentury : ofEra % 36524 = ofCentury
  generalize holympiad : ofCentury / 1461 = olympiad
  generalize hofOlympiad : ofCentury % 1461 = ofOlympiad
  generalize hyear : ofOlympiad / 365 = year
  generalize hofYear : ofOlympiad % 365 = ofYear
  have hsum : ordinal - 1 =
      146097 * era + 36524 * century + 1461 * olympiad + 365 * year + ofYear := by omega
  have hday : 0 ≤ ofYear ∧ ofYear < 365 := by omega
  have hparts : (0 ≤ century ∧ century ≤ 4) ∧ (0 ≤ olympiad ∧ olympiad ≤ 24) ∧
      0 ≤ year ∧ year ≤ 4 := by omega
  obtain ⟨hcenturies, holympiads, hyears⟩ := hparts
  split
  · next hlast =>
    -- the day before the first day of a part
    have hend : ofYear = 0 ∧ (year = 4 ∧ century ≤ 3 ∧ (olympiad = 24 → century = 3) ∨
        year = 0 ∧ olympiad = 0 ∧ century = 4) := by omega
    have hleap : isLeap (400 * era + 100 * century + 4 * olympiad + year) = true := by
      simp only [isLeap, Bool.and_eq_true, Bool.or_eq_true, decide_eq_true_eq]
      omega
    have hbefore : daysBeforeYear (400 * era + 100 * century + 4 * olympiad + year) =
        146097 * era + 36524 * century + 1461 * olympiad + 365 * year - 365 := by
      rcases hend with ⟨-, ⟨rfl, hcentury, -⟩ | ⟨rfl, rfl, rfl⟩⟩
      · have hparts := daysBeforeYear_parts era 3 ⟨hcenturies.1, hcentury⟩ holympiads
          (by omega)
        rw [show 400 * era + 100 * century + 4 * olympiad + 4 =
          400 * era + 100 * century + 4 * olympiad + 3 + 1 by omega, hparts]
        omega
      · have hparts := daysBeforeYear_parts era 3 (show (0 : Int) ≤ 3 ∧ (3 : Int) ≤ 3 by omega)
          (show (0 : Int) ≤ 24 ∧ (24 : Int) ≤ 24 by omega) (by omega)
        rw [show 400 * era + 100 * 4 + 4 * 0 + 0 = 400 * era + 100 * 3 + 4 * 24 + 3 + 1 by omega,
          hparts]
        omega
    dsimp only
    rw [daysInYear, hleap, hbefore]
    refine ⟨by decide, ?_⟩
    omega
  · next hother =>
    have hshort : 365 ≤ daysInYear (400 * era + 100 * century + 4 * olympiad + year + 1) := by
      unfold daysInYear
      split <;> omega
    dsimp only
    rw [daysBeforeYear_parts era year (by omega) holympiads (by omega)]
    omega

/-! ## Dates -/

structure Date where
  year : Int
  month : Nat
  day : Nat
  month_fits : 1 ≤ month ∧ month ≤ 12
  day_fits : 1 ≤ day ∧ day ≤ daysInMonth (isLeap year) month
deriving DecidableEq

namespace Date

/-- The number of a day. -/
def ordinal (date : Date) : Int :=
  daysBeforeYear date.year + daysBeforeMonth (isLeap date.year) date.month + date.day

theorem daysBeforeMonth_end (year : Int) : daysBeforeMonth (isLeap year) 13 = daysInYear year := by
  unfold daysInYear
  cases isLeap year <;> rfl

/-- The day of a number. -/
def ofOrdinal (ordinal : Int) : Date :=
  let year := (yearDay ordinal).1
  let day := (yearDay ordinal).2
  let month := monthUpTo (isLeap year) day 12
  have hfits : 1 ≤ month ∧ month ≤ 12 ∧ daysBeforeMonth (isLeap year) month ≤ day ∧
      day < daysBeforeMonth (isLeap year) (month + 1) := by
    have hday : day < daysBeforeMonth (isLeap year) 13 := by
      rw [daysBeforeMonth_end]
      exact (yearDay_fits ordinal).1
    exact monthUpTo_fits hday
  { year
    month
    day := day - daysBeforeMonth (isLeap year) month + 1
    month_fits := ⟨hfits.1, hfits.2.1⟩
    day_fits := by
      obtain ⟨hfirst, -, hbegun, hends⟩ := hfits
      obtain ⟨past, hpast⟩ := Nat.exists_eq_add_of_le' hfirst
      rw [hpast] at hbegun hends ⊢
      have hmonth : daysBeforeMonth (isLeap year) (past + 1 + 1) =
        daysBeforeMonth (isLeap year) (past + 1) + daysInMonth (isLeap year) (past + 1) := rfl
      omega }

/-- The day of a number has that number. -/
@[simp] theorem ordinal_ofOrdinal (n : Int) : (ofOrdinal n).ordinal = n := by
  have hday : (yearDay n).2 < daysBeforeMonth (isLeap (yearDay n).1) 13 := by
    rw [daysBeforeMonth_end]
    exact (yearDay_fits n).1
  have hbegun := (monthUpTo_fits hday).2.2.1
  have hnumber := (yearDay_fits n).2
  simp only [ordinal, ofOrdinal]
  omega

end Date

/-! ## Seconds -/

/-- A second of a day. -/
structure Stamp where
  date : Date
  second : Nat
  second_fits : second < 86400
deriving DecidableEq

namespace Stamp

def hour (stamp : Stamp) : Nat := stamp.second / 3600
def minute (stamp : Stamp) : Nat := stamp.second / 60 % 60
def secondOfMinute (stamp : Stamp) : Nat := stamp.second % 60

/-- The number of the first of January 1970. -/
def epoch : Int := 719163

/-- The seconds since the epoch. -/
def seconds (stamp : Stamp) : Int :=
  (stamp.date.ordinal - epoch) * 86400 + stamp.second

/-- The second that is so far from the epoch. -/
def ofSeconds (n : Int) : Stamp where
  date := .ofOrdinal (n / 86400 + epoch)
  second := (n % 86400).toNat
  second_fits := by omega

@[simp] theorem seconds_ofSeconds (n : Int) : (ofSeconds n).seconds = n := by
  simp only [seconds, ofSeconds, Date.ordinal_ofOrdinal]
  omega

end Stamp

example : (Stamp.ofSeconds 951782400).date = ⟨2000, 2, 29, by decide, by decide⟩ := by decide

end Calendar
