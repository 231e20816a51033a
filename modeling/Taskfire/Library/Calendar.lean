import Mathlib.Data.Int.Basic
import Mathlib.Data.List.Forall2
import Mathlib.Tactic.IntervalCases

/-!
# Dates and their texts

The days of the proleptic Gregorian calendar, counted from 1970-01-01, and fixed-width texts of
numbers.  A date determines its day, and the text of a list of numbers determines the numbers, so
that texts of dates can serve as keys.
-/

namespace Taskfire.Library

/-! ## Dates -/

structure Date where
  year : Int
  month : Int
  day : Int
  deriving DecidableEq

namespace Date

/-- The day after 1 March of its year, in a calendar whose years begin in March, as the cycles of the
leap years count it. -/
structure Position where
  era : Int
  century : Int
  cycle : Int
  year : Int
  day : Int

namespace Position

/-- Every 400 years have 146097 days.  A century has 24 leap days, a cycle of four years has one,
and the last century and the last year of a cycle are a day longer than the others. -/
def ofDays (days : Int) : Position :=
  let shifted := days + 719468
  let dayOfEra := shifted % 146097
  let century := min (dayOfEra / 36524) 3
  let dayOfCentury := dayOfEra - 36524 * century
  let dayOfCycle := dayOfCentury % 1461
  let year := min (dayOfCycle / 365) 3
  { era := shifted / 146097
    century
    cycle := dayOfCentury / 1461
    year
    day := dayOfCycle - 365 * year }

def toDays (position : Position) : Int :=
  146097 * position.era + 36524 * position.century + 1461 * position.cycle +
    365 * position.year + position.day - 719468

structure Within (position : Position) : Prop where
  century : 0 ≤ position.century ∧ position.century < 4
  cycle : 0 ≤ position.cycle ∧ position.cycle < 25
  year : 0 ≤ position.year ∧ position.year < 4
  day : 0 ≤ position.day ∧ position.day ≤ 365

theorem ofDays_within (days : Int) : (ofDays days).Within := by
  constructor <;> simp only [ofDays] <;> omega

theorem toDays_ofDays (days : Int) : (ofDays days).toDays = days := by
  simp only [ofDays, toDays]
  omega

end Position

/-- The months of a year that begins in March have 153 days in every five. -/
def ofPosition (position : Position) : Date :=
  let month := (5 * position.day + 2) / 153
  let year := 400 * position.era + 100 * position.century + 4 * position.cycle + position.year
  { year := if month < 10 then year else year + 1
    month := if month < 10 then month + 3 else month - 9
    day := position.day - (153 * month + 2) / 5 + 1 }

def toPosition (date : Date) : Position :=
  let month := if date.month < 3 then date.month + 9 else date.month - 3
  let year := if date.month < 3 then date.year - 1 else date.year
  { era := year / 400
    century := year % 400 / 100
    cycle := year % 100 / 4
    year := year % 4
    day := date.day + (153 * month + 2) / 5 - 1 }

theorem toPosition_ofPosition {position : Position} (within : position.Within) :
    (ofPosition position).toPosition = position := by
  obtain ⟨century, cycle, year, day⟩ := within
  obtain ⟨era, centuryOf, cycleOf, yearOf, dayOf⟩ := position
  simp only [ofPosition, toPosition, Position.mk.injEq] at century cycle year day ⊢
  omega

def ofDays (days : Int) : Date := ofPosition (.ofDays days)

def toDays (date : Date) : Int := date.toPosition.toDays

theorem toDays_ofDays (days : Int) : (ofDays days).toDays = days := by
  rw [toDays, ofDays, toPosition_ofPosition (Position.ofDays_within days), Position.toDays_ofDays]

theorem ofDays_month (days : Int) : 0 ≤ (ofDays days).month ∧ (ofDays days).month < 13 := by
  have day := (Position.ofDays_within days).day
  simp only [ofDays, ofPosition]
  omega

theorem ofDays_day (days : Int) : 0 ≤ (ofDays days).day ∧ (ofDays days).day < 32 := by
  have day := (Position.ofDays_within days).day
  simp only [ofDays, ofPosition]
  omega

/-- A year has at least 365 days. -/
theorem ofDays_year {days years : Int} (low : -(365 * years) ≤ days) (high : days ≤ 365 * years) :
    1968 - years ≤ (ofDays days).year ∧ (ofDays days).year ≤ 1971 + years := by
  simp only [ofDays, ofPosition, Position.ofDays]
  omega

example : ofDays 19782 = ⟨2024, 2, 29⟩ := by decide

end Date

/-! ## Numbers of a fixed width -/

def digit (n : Nat) : Char := Char.ofNat (48 + n % 10)

theorem digit_injective {m n : Nat} (same : digit m = digit n) : m % 10 = n % 10 := by
  have code (n : Nat) : (digit n).toNat = 48 + n % 10 := by
    have small : n % 10 < 10 := Nat.mod_lt _ (by omega)
    rw [digit]
    interval_cases n % 10 <;> rfl
  have codes := congrArg Char.toNat same
  rw [code, code] at codes
  omega

/-- The last `width` decimal digits of a number. -/
def digits : Nat → Nat → List Char
  | 0, _ => []
  | width + 1, n => digits width (n / 10) ++ [digit n]

@[simp] theorem length_digits (width n : Nat) : (digits width n).length = width := by
  induction width generalizing n with
  | zero => rfl
  | succ width inductionHypothesis => simp [digits, inductionHypothesis]

theorem digits_injective {width m n : Nat} (hm : m < 10 ^ width) (hn : n < 10 ^ width)
    (same : digits width m = digits width n) : m = n := by
  induction width generalizing m n with
  | zero => omega
  | succ width inductionHypothesis =>
    rw [Nat.pow_succ] at hm hn
    obtain ⟨front, last⟩ := List.append_inj' same rfl
    have high := inductionHypothesis (by omega) (by omega) front
    have low := digit_injective (List.cons.inj last).1
    omega

/-- The numbers in fields of the given widths, each followed by its mark. -/
def render : List (Nat × Char) → List Nat → List Char
  | (width, mark) :: fields, value :: values => digits width value ++ mark :: render fields values
  | _, _ => []

/-- Each number has a field that is wide enough. -/
abbrev Fits : List (Nat × Char) → List Nat → Prop :=
  List.Forall₂ fun field value => value < 10 ^ field.1

theorem render_injective {fields : List (Nat × Char)} {values values' : List Nat}
    (fits : Fits fields values) (fits' : Fits fields values')
    (same : render fields values = render fields values') : values = values' := by
  induction fits generalizing values' with
  | nil => cases fits'; rfl
  | @cons field value fields values within rest inductionHypothesis =>
    cases fits' with
    | @cons _ value' _ values' within' rest' =>
      -- Fields of one width end at the same place in both texts.
      have sameLength : (digits field.1 value).length = (digits field.1 value').length := by simp
      obtain ⟨first, later⟩ := List.append_inj same sameLength
      rw [digits_injective within within' first,
        inductionHypothesis rest' (List.cons.inj later).2]

theorem length_render {fields : List (Nat × Char)} {values : List Nat} (fits : Fits fields values) :
    (render fields values).length = (fields.map fun field => field.1 + 1).sum := by
  induction fits with
  | nil => rfl
  | cons _ _ inductionHypothesis => simp [render, inductionHypothesis, Nat.add_assoc, Nat.add_comm]

end Taskfire.Library
