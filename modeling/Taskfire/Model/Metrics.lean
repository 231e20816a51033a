import Mathlib.Data.List.Sort
import Taskfire.Library.Calendar
import Taskfire.Model.Queue

/-!
# The throughput of the last hour

`getThroughput` (`api/src/services/postgres.ts`) and the route `GET /throughput`
(`api/src/routes/metrics.ts`), which fills in the minutes without a row.  The route finds the rows of
the query by the texts of their minutes.  A clock is a number of nanoseconds since the epoch, and the
time zone is UTC.
-/

namespace Taskfire

open Taskfire.Library

def minute : Time := 60 * second

/-- The minute an instant lies in: `date_trunc` and `setSeconds(0, 0)` go back to its beginning. -/
def Time.minuteOf (time : Time) : Int := time / minute

/-- The rows of a table with the given ids. -/
def Jobs.rows (jobs : Jobs) (ids : List JobId) : List Row := ids.filterMap jobs

namespace Api

/-! ## Texts of dates -/

/-- The fields of a date after its year. -/
def dateFields : List (Nat × Char) := [(2, '-'), (2, 'T'), (2, ':'), (2, ':'), (2, '.'), (3, 'Z')]

def dateValues (millis : Int) : List Nat :=
  let date := Date.ofDays (millis / 86400000)
  let rest := (millis % 86400000).toNat
  [date.month.toNat, date.day.toNat, rest / 3600000, rest / 60000 % 60, rest / 1000 % 60, rest % 1000]

/-- A year that does not have four digits gets a sign and six of them. -/
def yearText (year : Int) : List Char :=
  if 0 ≤ year ∧ year ≤ 9999 then digits 4 year.toNat
  else (if year < 0 then '-' else '+') :: digits 6 year.natAbs

/-- `toISOString` of the date with this number of milliseconds; it throws a RangeError on a date
that is out of range. -/
def toISOString (millis : Int) : Option String :=
  if millis.natAbs ≤ 8640000000000000 then
    let year := (Date.ofDays (millis / 86400000)).year
    some (.ofList (yearText year ++ '-' :: render dateFields (dateValues millis)))
  else none

def minuteText (minute : Int) : Option String := toISOString (minute * 60000)

/-! ## The query -/

structure ThroughputRow where
  time : String
  completed : Nat
  failed : Nat
  deriving DecidableEq

/-- What the query knows of a row once it is selected. -/
structure Selected where
  minute : Int
  status : JobStatus

/-- `WHERE completed_at > NOW() - INTERVAL '60 minutes' AND completed_at IS NOT NULL`. -/
def select (now : Time) (row : Row) : Option Selected :=
  row.completedAt.bind fun time =>
    if now - 60 * minute < time then some ⟨time.minuteOf, row.status⟩ else none

/-- The two aggregates of one group. -/
def aggregate (selected : List Selected) (time : String) (minute : Int) : ThroughputRow :=
  let group := selected.filter fun row => row.minute = minute
  { time
    completed := group.countP fun row => row.status = .completed
    failed := group.countP fun row => row.status ∈ [.failed, .dead] }

def getThroughput (rows : List Row) (now : Time) : Option (List ThroughputRow) :=
  let selected := rows.filterMap (select now)
  -- `GROUP BY 1 ORDER BY 1`.
  let minutes := (selected.map (·.minute)).dedup.insertionSort (· ≤ ·)
  minutes.mapM fun minute => do
    let time ← minuteText minute
    pure (aggregate selected time minute)

/-! ## The route -/

/-- `new Map(entries)`: a later entry replaces an earlier one with the same key. -/
def newMap {α : Type} (entries : List (String × α)) (key : String) : Option α :=
  entries.reverse.lookup key

/-- One turn of the loop: a minute without a row gets zeros. -/
def pointOf (byMinute : String → Option ThroughputRow) (minute : Int) : Option ThroughputRow := do
  let key ← minuteText minute
  let existing := byMinute key
  pure
    { time := key
      completed := (existing.map (·.completed)).getD 0
      failed := (existing.map (·.failed)).getD 0 }

/-- `GET /throughput`, on the rows of the table, with the clock readings of the query and of the
response. -/
def throughput (rows : List Row) (queried responded : Time) : Option (List ThroughputRow) := do
  let found ← getThroughput rows queried
  let byMinute := newMap (found.map fun row => (row.time, row))
  -- From 59 minutes ago to the current minute.
  (List.range 60).reverse.mapM fun (i : Nat) => pointOf byMinute (responded.minuteOf - i)

/-! ## Texts determine their minutes -/

theorem dateValues_fits (millis : Int) : Fits dateFields (dateValues millis) := by
  have month := Date.ofDays_month (millis / 86400000)
  have day := Date.ofDays_day (millis / 86400000)
  simp only [Fits, dateFields, dateValues, List.forall₂_cons, List.forall₂_nil_left_iff, and_true]
  omega

theorem dateValues_injective {millis millis' : Int}
    (years : (Date.ofDays (millis / 86400000)).year = (Date.ofDays (millis' / 86400000)).year)
    (values : dateValues millis = dateValues millis') : millis = millis' := by
  have month := Date.ofDays_month (millis / 86400000)
  have month' := Date.ofDays_month (millis' / 86400000)
  have day := Date.ofDays_day (millis / 86400000)
  have day' := Date.ofDays_day (millis' / 86400000)
  simp only [dateValues, List.cons.injEq, and_true] at values
  obtain ⟨months, days, hours, minutes, seconds, rests⟩ := values
  have dates : Date.ofDays (millis / 86400000) = Date.ofDays (millis' / 86400000) := by
    rw [Date.mk.injEq]
    omega
  have same := congrArg Date.toDays dates
  rw [Date.toDays_ofDays, Date.toDays_ofDays] at same
  omega

theorem yearText_injective {year year' : Int} (small : year.natAbs < 1000000)
    (small' : year'.natAbs < 1000000) (same : yearText year = yearText year') : year = year' := by
  have wide (year : Int) (sign : Char) (other : Nat) :
      sign :: digits 6 year.natAbs ≠ digits 4 other := by
    intro equal
    have lengths := congrArg List.length equal
    simp at lengths
  by_cases short : 0 ≤ year ∧ year ≤ 9999 <;> by_cases short' : 0 ≤ year' ∧ year' ≤ 9999
  · rw [yearText, yearText, if_pos short, if_pos short'] at same
    have numbers := digits_injective (by omega) (by omega) same
    omega
  · rw [yearText, yearText, if_pos short, if_neg short'] at same
    exact absurd same.symm (wide _ _ _)
  · rw [yearText, yearText, if_neg short, if_pos short'] at same
    exact absurd same (wide _ _ _)
  · rw [yearText, yearText, if_neg short, if_neg short'] at same
    obtain ⟨signs, texts⟩ := List.cons.inj same
    have numbers := digits_injective small small' texts
    -- The signs tell a year from its negative.
    split at signs <;> split at signs
    · omega
    · cases signs
    · cases signs
    · omega

theorem toISOString_injective {millis millis' : Int} {text : String}
    (first : toISOString millis = some text) (second : toISOString millis' = some text) :
    millis = millis' := by
  have year {millis : Int} (within : millis.natAbs ≤ 8640000000000000) :
      (Date.ofDays (millis / 86400000)).year.natAbs < 1000000 := by
    have bounds := @Date.ofDays_year (millis / 86400000) 300000 (by omega) (by omega)
    omega
  simp only [toISOString, Option.ite_none_right_eq_some, Option.some.injEq] at first second
  obtain ⟨within, rfl⟩ := first
  obtain ⟨within', same⟩ := second
  have lengths := (length_render (dateValues_fits millis')).trans
    (length_render (dateValues_fits millis)).symm
  obtain ⟨years, rest⟩ := List.append_inj' (String.ofList_injective same) (by simp [lengths])
  have values := render_injective (dateValues_fits millis) (dateValues_fits millis')
    (List.cons.inj rest.symm).2
  exact dateValues_injective (yearText_injective (year within) (year within') years.symm) values

theorem minuteText_injective {minute minute' : Int} {text : String}
    (first : minuteText minute = some text) (second : minuteText minute' = some text) :
    minute = minute' := by
  have same := toISOString_injective first second
  omega

example : toISOString 1735725600000 = some "2025-01-01T10:00:00.000Z" := by decide +kernel

end Api

end Taskfire
