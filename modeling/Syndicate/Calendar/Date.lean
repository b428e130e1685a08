/-! Days of the proleptic Gregorian calendar, from the year 1 to the year 9999. A day is also a
number, counted from zero on the first of January of the year 1, a Monday. -/

namespace Syndicate

structure Date where
  year : Nat
  month : Nat
  day : Nat
  deriving DecidableEq, Inhabited

namespace Date

def isLeap (year : Nat) : Bool := year % 4 = 0 && (year % 100 ≠ 0 || year % 400 = 0)

def monthLength (year month : Nat) : Nat :=
  match month with
  | 2 => if isLeap year then 29 else 28
  | 4 | 6 | 9 | 11 => 30
  | _ => 31

/-- The day of that year, month and day of the month, if the calendar has one. -/
def ofParts? (year month day : Nat) : Option Date :=
  if 1 ≤ year && year ≤ 9999 && 1 ≤ month && month ≤ 12 && 1 ≤ day && day ≤ monthLength year month
  then some ⟨year, month, day⟩ else none

/-- How many days of a year lie before a month. -/
def daysBefore (year : Nat) : (month : Nat) → Nat
  | 0 | 1 => 0
  | m + 2 => daysBefore year (m + 1) + monthLength year (m + 1)

/-- How many days lie before a year. -/
def daysBeforeYear (year : Nat) : Nat :=
  let y := year - 1
  365 * y + y / 4 - y / 100 + y / 400

def number (d : Date) : Nat := daysBeforeYear d.year + daysBefore d.year d.month + (d.day - 1)

/-- The number of days that the calendar has. -/
def count : Nat := 3652059

/-- Splits the days of a year into month and day, starting from a month. -/
def monthOf (year : Nat) : (fuel month day : Nat) → Nat × Nat
  | 0, m, d => (m, d + 1)
  | n + 1, m, d =>
    if d < monthLength year m then (m, d + 1) else monthOf year n (m + 1) (d - monthLength year m)

/-- The day with a number, found by cycles of 400, 100, 4 and 1 years. -/
def ofNumber (n : Nat) : Date :=
  let q400 := n / 146097
  let r400 := n % 146097
  let q100 := min (r400 / 36524) 3
  let r100 := r400 - q100 * 36524
  let q4 := r100 / 1461
  let r4 := r100 % 1461
  let q1 := min (r4 / 365) 3
  let year := q400 * 400 + q100 * 100 + q4 * 4 + q1 + 1
  let (m, d) := monthOf year 11 1 (r4 - q1 * 365)
  ⟨year, m, d⟩

/-- A number in decimal, filled up with zeros on the left. -/
def padded (width n : Nat) : String :=
  let ds := Nat.toDigits 10 n
  String.ofList (List.replicate (width - ds.length) '0' ++ ds)

def display (d : Date) : String :=
  padded 4 d.year ++ "-" ++ padded 2 d.month ++ "-" ++ padded 2 d.day

end Date

end Syndicate
