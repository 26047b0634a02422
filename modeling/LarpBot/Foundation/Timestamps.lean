import LarpBot.Foundation.Calendar
import Mathlib

/-!
# Texts of instants

The texts in which programs exchange instants: a stamp, a fraction of a second and a zone, as in
`2026-10-12T03:00:00.123456+00:00`. Writers differ in the number of digits of the fraction and in how
they write UTC; `read` takes all of these texts, and each writer comes with the equation that says
what is read of its text.
-/

namespace Calendar

/-! ## Digits -/

def digit (n : Nat) : Char :=
  Char.ofNat (48 + n % 10)

def digitValue (c : Char) : Option Nat :=
  if c.isDigit then some (c.toNat - 48) else none

/-- The last digits of a number, as many as asked for. -/
def digits : Nat → Nat → List Char
  | 0, _ => []
  | width + 1, n => digit (n / 10 ^ width) :: digits width n

/-- Read so many digits, behind those that make up `value`. -/
def readDigits : Nat → Nat → List Char → Option (Nat × List Char)
  | 0, value, rest => some (value, rest)
  | _ + 1, _, [] => none
  | width + 1, value, c :: rest =>
    (digitValue c).bind fun d => readDigits width (value * 10 + d) rest

theorem digit_cases (n : Nat) : digit n = '0' ∨ digit n = '1' ∨ digit n = '2' ∨ digit n = '3' ∨
    digit n = '4' ∨ digit n = '5' ∨ digit n = '6' ∨ digit n = '7' ∨ digit n = '8' ∨ digit n = '9' := by
  unfold digit
  have hlt : n % 10 < 10 := Nat.mod_lt n (by omega)
  generalize n % 10 = d at hlt
  interval_cases d <;> decide

theorem digitValue_digit (n : Nat) : digitValue (digit n) = some (n % 10) := by
  unfold digit
  have hlt : n % 10 < 10 := Nat.mod_lt n (by omega)
  generalize n % 10 = d at hlt
  interval_cases d <;> decide

@[simp] theorem isDigit_digit (n : Nat) : (digit n).isDigit = true := by
  rcases digit_cases n with h | h | h | h | h | h | h | h | h | h <;> rw [h] <;> rfl

@[simp] theorem length_digits (width n : Nat) : (digits width n).length = width := by
  induction width with
  | zero => rfl
  | succ width ih => rw [digits, List.length_cons, ih]

theorem isDigit_of_mem_digits {width n : Nat} {c : Char} (h : c ∈ digits width n) :
    c.isDigit = true := by
  induction width with
  | zero => exact absurd h List.not_mem_nil
  | succ width ih =>
    rcases List.mem_cons.mp h with rfl | h
    · exact isDigit_digit _
    · exact ih h

theorem readDigits_digits (width n value : Nat) (rest : List Char) :
    readDigits width value (digits width n ++ rest) =
      some (value * 10 ^ width + n % 10 ^ width, rest) := by
  induction width generalizing value with
  | zero => simp [digits, readDigits, Nat.mod_one]
  | succ width ih =>
    rw [digits, List.cons_append, readDigits, digitValue_digit, Option.bind_some, ih]
    have hsplit : n % 10 ^ (width + 1) = n % 10 ^ width + 10 ^ width * (n / 10 ^ width % 10) := by
      rw [pow_succ, Nat.mod_mul]
    rw [hsplit, pow_succ]
    congr 2
    ring

/-- Digits that are read are those of the number. -/
theorem readDigits_of_lt {width n : Nat} (h : n < 10 ^ width) (rest : List Char) :
    readDigits width 0 (digits width n ++ rest) = some (n, rest) := by
  rw [readDigits_digits, Nat.zero_mul, Nat.zero_add, Nat.mod_eq_of_lt h]

theorem digits_zeros (zeros n : Nat) :
    digits zeros (n * 10 ^ zeros) = List.replicate zeros '0' := by
  induction zeros generalizing n with
  | zero => rfl
  | succ zeros ih =>
    have hshift : n * 10 ^ (zeros + 1) = n * 10 * 10 ^ zeros := by rw [pow_succ]; ring
    have hdigit : digit (n * 10) = '0' := by
      unfold digit
      rw [Nat.mul_mod_left]
    rw [digits, hshift, Nat.mul_div_cancel _ (Nat.pow_pos (by decide)), hdigit, ih,
      List.replicate_succ]

/-! ## Fractions -/

/-- The digits of a fraction without the zeros at the end. -/
def trimZeros (ds : List Char) : List Char :=
  ds.rdropWhile (· = '0')

/-- The first digits of a fraction, as many as asked for. -/
def padZeros (width : Nat) (ds : List Char) : List Char :=
  ds.take width ++ List.replicate (width - ds.length) '0'

/-- A fraction of a second, counted in parts of the given number of digits; what is finer is cut
off. -/
def fractionOf (width : Nat) (ds : List Char) : Option Nat :=
  (readDigits width 0 (padZeros width ds)).map Prod.fst

theorem padZeros_append {width zeros : Nat} {ds : List Char} (h : ds.length + zeros = width) :
    padZeros width ds = ds ++ List.replicate zeros '0' := by
  rw [padZeros, List.take_of_length_le (by omega), show width - ds.length = zeros by omega]

/-- Zeros at the end make no difference. -/
theorem padZeros_replicate (width zeros : Nat) (ds : List Char) :
    padZeros width (ds ++ List.replicate zeros '0') = padZeros width ds := by
  unfold padZeros
  rw [List.take_append, List.take_replicate, List.append_assoc, ← List.replicate_add,
    List.length_append, List.length_replicate]
  congr 2
  omega

/-- A fraction is read as it was written, -/
theorem fractionOf_digits {width n : Nat} (h : n < 10 ^ width) :
    fractionOf width (digits width n) = some n := by
  have hpad : padZeros width (digits width n) = digits width n ++ [] :=
    padZeros_append (show _ + 0 = width from length_digits width n)
  rw [fractionOf, hpad, readDigits_of_lt h, Option.map_some]

/-! ## Stamps -/

namespace Stamp

/-- `2026-10-12T03:00:00`. -/
def text (stamp : Stamp) : List Char :=
  digits 4 stamp.date.year.toNat ++ '-' :: (digits 2 stamp.date.month ++ '-' ::
    (digits 2 stamp.date.day ++ 'T' :: (digits 2 stamp.hour ++ ':' ::
      (digits 2 stamp.minute ++ ':' :: digits 2 stamp.secondOfMinute))))

/-- The stamp of these numbers, if there is one. -/
def ofNumbers (year month day hour minute second : Nat) : Option Stamp :=
  if h : (1 ≤ month ∧ month ≤ 12) ∧ (1 ≤ day ∧ day ≤ daysInMonth (isLeap year) month) ∧
      hour < 24 ∧ minute < 60 ∧ second < 60 then
    some ⟨⟨year, month, day, h.1, h.2.1⟩, hour * 3600 + minute * 60 + second, by omega⟩
  else none

end Stamp

/-- One character, which is there. -/
def readChar (c : Char) : List Char → Option (List Char)
  | [] => none
  | first :: rest => if first = c then some rest else none

@[simp] theorem readChar_cons (c : Char) (rest : List Char) : readChar c (c :: rest) = some rest :=
  if_pos rfl

def readStamp (text : List Char) : Option (Stamp × List Char) := do
  let (year, rest) ← readDigits 4 0 text
  let rest ← readChar '-' rest
  let (month, rest) ← readDigits 2 0 rest
  let rest ← readChar '-' rest
  let (day, rest) ← readDigits 2 0 rest
  let rest ← readChar 'T' rest
  let (hour, rest) ← readDigits 2 0 rest
  let rest ← readChar ':' rest
  let (minute, rest) ← readDigits 2 0 rest
  let rest ← readChar ':' rest
  let (second, rest) ← readDigits 2 0 rest
  let stamp ← Stamp.ofNumbers year month day hour minute second
  return (stamp, rest)

/-- The year has four digits. -/
def Stamp.HasText (stamp : Stamp) : Prop :=
  0 ≤ stamp.date.year ∧ stamp.date.year < 10000

instance (stamp : Stamp) : Decidable stamp.HasText :=
  inferInstanceAs (Decidable (_ ∧ _))

theorem Stamp.ofNumbers_of_fits {year month day second : Nat} (hmonth : 1 ≤ month ∧ month ≤ 12)
    (hday : 1 ≤ day ∧ day ≤ daysInMonth (isLeap year) month) (hsecond : second < 86400) :
    Stamp.ofNumbers year month day (second / 3600) (second / 60 % 60) (second % 60) =
      some ⟨⟨year, month, day, hmonth, hday⟩, second, hsecond⟩ := by
  have hparts : second / 3600 < 24 ∧ second / 60 % 60 < 60 ∧ second % 60 < 60 := by omega
  have hsum : second / 3600 * 3600 + second / 60 % 60 * 60 + second % 60 = second := by omega
  rw [Stamp.ofNumbers, dif_pos ⟨hmonth, hday, hparts⟩, Option.some.injEq, Stamp.mk.injEq]
  exact ⟨rfl, hsum⟩

theorem Stamp.ofNumbers_self {stamp : Stamp} (h : stamp.HasText) :
    Stamp.ofNumbers stamp.date.year.toNat stamp.date.month stamp.date.day stamp.hour stamp.minute
      stamp.secondOfMinute = some stamp := by
  obtain ⟨⟨year, month, day, hmonth, hday⟩, second, hsecond⟩ := stamp
  obtain ⟨year, rfl⟩ := Int.eq_ofNat_of_zero_le h.1
  exact Stamp.ofNumbers_of_fits hmonth hday hsecond

theorem readStamp_text {stamp : Stamp} (h : stamp.HasText) (rest : List Char) :
    readStamp (stamp.text ++ rest) = some (stamp, rest) := by
  have hyear : stamp.date.year.toNat < 10 ^ 4 := by
    have := h.2
    omega
  have hmonth : stamp.date.month < 10 ^ 2 := by
    have := stamp.date.month_fits
    omega
  have hday : stamp.date.day < 10 ^ 2 := by
    have hmost : daysInMonth (isLeap stamp.date.year) stamp.date.month ≤ 31 := by
      unfold daysInMonth
      split <;> (try split) <;> omega
    have := stamp.date.day_fits
    omega
  have hsecond := stamp.second_fits
  have hhour : stamp.hour < 10 ^ 2 := by unfold Stamp.hour; omega
  have hminute : stamp.minute < 10 ^ 2 := by unfold Stamp.minute; omega
  have hlast : stamp.secondOfMinute < 10 ^ 2 := by unfold Stamp.secondOfMinute; omega
  simp only [readStamp, Stamp.text, List.append_assoc, List.cons_append, readDigits_of_lt hyear,
    readDigits_of_lt hmonth, readDigits_of_lt hday, readDigits_of_lt hhour, readDigits_of_lt hminute,
    readDigits_of_lt hlast, readChar_cons, Option.bind_eq_bind, Option.bind_some,
    Stamp.ofNumbers_self h]
  rfl

/-! ## Zones and whole texts -/

/-- `+03:00`, for an offset in minutes. -/
def zoneText (offset : Int) : List Char :=
  (if offset < 0 then '-' else '+') ::
    (digits 2 (offset.natAbs / 60) ++ ':' :: digits 2 (offset.natAbs % 60))

/-- The minutes of `03:00`. -/
def readOffset (text : List Char) : Option Int := do
  let (hours, rest) ← readDigits 2 0 text
  let rest ← readChar ':' rest
  let (minutes, rest) ← readDigits 2 0 rest
  if rest = [] ∧ hours < 24 ∧ minutes < 60 then some (hours * 60 + minutes : Nat) else none

def readZone : List Char → Option Int
  | ['Z'] => some 0
  | '+' :: rest => readOffset rest
  | '-' :: rest => (readOffset rest).map (- ·)
  | _ => none

theorem readZone_zoneText {offset : Int} (h : offset.natAbs < 1440) :
    readZone (zoneText offset) = some offset := by
  have hhours : offset.natAbs / 60 < 10 ^ 2 := by omega
  have hminutes : offset.natAbs % 60 < 10 ^ 2 := by omega
  have hlast := readDigits_of_lt hminutes []
  rw [List.append_nil] at hlast
  have hfits : offset.natAbs / 60 < 24 ∧ offset.natAbs % 60 < 60 := by omega
  have hread : readOffset (digits 2 (offset.natAbs / 60) ++ ':' :: digits 2 (offset.natAbs % 60)) =
      some (offset.natAbs : Int) := by
    simp only [readOffset, readDigits_of_lt hhours, readChar_cons, hlast, Option.bind_eq_bind,
      Option.bind_some]
    rw [if_pos ⟨trivial, hfits⟩, Option.some.injEq]
    omega
  unfold zoneText
  by_cases hneg : offset < 0
  · rw [if_pos hneg, readZone, hread, Option.map_some, Option.some.injEq]
    omega
  · rw [if_neg hneg, readZone, hread, Option.some.injEq]
    omega

/-- What a text tells: a stamp on the clocks of a zone, the digits behind its seconds, and the offset
of the zone in minutes. -/
structure Reading where
  stamp : Stamp
  fraction : List Char
  offset : Int
deriving DecidableEq

/-- What is behind the stamp. A fraction has at least one digit. -/
def readRest (stamp : Stamp) : List Char → Option Reading
  | '.' :: rest =>
    let fraction := rest.takeWhile Char.isDigit
    if fraction = [] then none
    else (readZone (rest.dropWhile Char.isDigit)).map (Reading.mk stamp fraction)
  | zone => (readZone zone).map (Reading.mk stamp [])

theorem readRest_point (stamp : Stamp) (rest : List Char) : readRest stamp ('.' :: rest) =
    if rest.takeWhile Char.isDigit = [] then none
    else (readZone (rest.dropWhile Char.isDigit)).map
      (Reading.mk stamp (rest.takeWhile Char.isDigit)) := rfl

theorem readRest_zone (stamp : Stamp) {zone : List Char} (h : ∀ c ∈ zone.head?, c ≠ '.') :
    readRest stamp zone = (readZone zone).map (Reading.mk stamp []) := by
  unfold readRest
  split
  · exact absurd rfl (h '.' rfl)
  · rfl

/-- A text as the programs exchange it. -/
def read (text : List Char) : Option Reading :=
  (readStamp text).bind fun found => readRest found.1 found.2

/-- A fraction behind the seconds, if there is one. -/
def fractionText : List Char → List Char
  | [] => []
  | ds => '.' :: ds

theorem takeWhile_digits {fraction zone : List Char} (hfraction : ∀ c ∈ fraction, c.isDigit = true)
    (hzone : ∀ c ∈ zone.head?, c.isDigit = false) :
    (fraction ++ zone).takeWhile Char.isDigit = fraction ∧
      (fraction ++ zone).dropWhile Char.isDigit = zone := by
  rw [List.takeWhile_append_of_pos hfraction, List.dropWhile_append_of_pos hfraction]
  cases zone with
  | nil => exact ⟨List.append_nil _, rfl⟩
  | cons c rest =>
    have hc := hzone c rfl
    rw [List.takeWhile_cons_of_neg (by simp [hc]), List.dropWhile_cons_of_neg (by simp [hc])]
    exact ⟨List.append_nil _, rfl⟩

/-- The text of a stamp, a fraction and a zone is read as such. -/
theorem read_text {stamp : Stamp} {fraction zone : List Char} {offset : Int} (h : stamp.HasText)
    (hfraction : ∀ c ∈ fraction, c.isDigit = true) (hzone : readZone zone = some offset)
    (hfirst : ∀ c ∈ zone.head?, c.isDigit = false ∧ c ≠ '.') :
    read (stamp.text ++ (fractionText fraction ++ zone)) = some ⟨stamp, fraction, offset⟩ := by
  rw [read, readStamp_text h, Option.bind_some]
  cases fraction with
  | nil =>
    rw [fractionText, List.nil_append, readRest_zone stamp fun c hc => (hfirst c hc).2, hzone,
      Option.map_some]
  | cons d ds =>
    obtain ⟨htake, hdrop⟩ := takeWhile_digits hfraction fun c hc => (hfirst c hc).1
    show readRest stamp ('.' :: (d :: ds ++ zone)) = _
    rw [readRest_point, htake, hdrop, if_neg (List.cons_ne_nil d ds), hzone, Option.map_some]

/-! ## Writers -/

/-- The digits of a fraction, or none of them. -/
def fixedFraction (width n : Nat) : List Char :=
  if n = 0 then [] else digits width n

def trimmedFraction (width n : Nat) : List Char :=
  trimZeros (digits width n)

/-- UTC. -/
def utcZone : List Char := ['Z']

theorem fractionOf_nil (width : Nat) : fractionOf width [] = some 0 := by
  have hpad : padZeros width [] = padZeros width (digits width 0) := by
    have hzeros := digits_zeros width 0
    rw [Nat.zero_mul] at hzeros
    rw [hzeros, ← List.nil_append (List.replicate width '0'), padZeros_replicate]
  rw [fractionOf, hpad, ← fractionOf, fractionOf_digits (Nat.pow_pos (by decide))]

theorem fractionOf_fixedFraction {width n : Nat} (h : n < 10 ^ width) :
    fractionOf width (fixedFraction width n) = some n := by
  unfold fixedFraction
  split
  · next hzero => rw [fractionOf_nil, hzero]
  · exact fractionOf_digits h

theorem isDigit_of_mem_fixedFraction {width n : Nat} {c : Char} (h : c ∈ fixedFraction width n) :
    c.isDigit = true := by
  unfold fixedFraction at h
  split at h
  · exact absurd h List.not_mem_nil
  · exact isDigit_of_mem_digits h

/-- The stamp on the clocks of a zone. -/
def clock (width : Nat) (n : Int) (offset : Int) : Stamp :=
  .ofSeconds (n / 10 ^ width + offset * 60)

/-- The parts of a second behind it. -/
def parts (width : Nat) (n : Int) : Nat :=
  (n % 10 ^ width).toNat

theorem parts_lt (width : Nat) (n : Int) : parts width n < 10 ^ width := by
  have hpos : (0 : Int) < 10 ^ width := Int.pow_pos (by decide)
  have hlt := Int.emod_lt_of_pos n hpos
  have hnonneg := Int.emod_nonneg n (Int.ne_of_gt hpos)
  refine (Int.toNat_lt hnonneg).mpr ?_
  rw [Int.natCast_pow]
  exact hlt

theorem seconds_parts (width : Nat) (n : Int) : n / 10 ^ width * 10 ^ width + parts width n = n := by
  have hpos : (0 : Int) < 10 ^ width := Int.pow_pos (by decide)
  unfold parts
  rw [Int.toNat_of_nonneg (Int.emod_nonneg n (Int.ne_of_gt hpos)), Int.mul_comm, Int.mul_ediv_add_emod]

/-- The text of an instant on the clocks of a zone. -/
def instantText (width : Nat) (fraction : Nat → List Char) (zone : List Char) (n offset : Int) :
    List Char :=
  (clock width n offset).text ++ (fractionText (fraction (parts width n)) ++ zone)

theorem zoneText_head (offset : Int) : ∀ c ∈ (zoneText offset).head?, c.isDigit = false ∧ c ≠ '.' := by
  unfold zoneText
  rintro c hc
  obtain rfl := Option.some.inj hc
  split <;> decide

end Calendar
