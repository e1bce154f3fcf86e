import ApiSmith.Number.Integer

/-!
# Calendar dates

Dates of the years 1 to 9999 in the Gregorian calendar, and the date of a weekday in an ISO week.
-/

namespace ApiSmith.Time

open ApiSmith.Number

def isLeap (year : Nat) : Bool := year % 4 == 0 && (year % 100 != 0 || year % 400 == 0)

def daysInMonth (year month : Nat) : Nat :=
  match month with
  | 2 => if isLeap year then 29 else 28
  | 4 | 6 | 9 | 11 => 30
  | _ => 31

def isDate (year month day : Nat) : Bool :=
  1 ≤ year && year ≤ 9999 && 1 ≤ month && month ≤ 12 && 1 ≤ day && day ≤ daysInMonth year month

structure Date where
  /-- The year, 1 to 9999. -/
  year : Nat
  /-- The month, 1 to 12. -/
  month : Nat
  day : Nat
  valid : isDate year month day = true
  deriving DecidableEq, Repr

def Date.of? (year month day : Nat) : Option Date :=
  if h : isDate year month day = true then some ⟨year, month, day, h⟩ else none

def Date.isoText (d : Date) : List Char :=
  padded 4 d.year ++ ['-'] ++ padded 2 d.month ++ ['-'] ++ padded 2 d.day

def daysBeforeYear (year : Nat) : Nat :=
  let y := year - 1
  y * 365 + y / 4 - y / 100 + y / 400

def daysBeforeMonth (year month : Nat) : Nat :=
  (List.range (month - 1)).foldl (fun days m => days + daysInMonth year (m + 1)) 0

/-- The month and day of the zero-based day of a year, searching from a month on. -/
def monthAndDay (year : Nat) : Nat → Nat → Nat → Nat × Nat
  | 0, month, day => (month, day + 1)
  | fuel + 1, month, day =>
    if day < daysInMonth year month then (month, day + 1)
    else monthAndDay year fuel (month + 1) (day - daysInMonth year month)

/-- The weekday of the first of January, Monday being 0. -/
def firstWeekday (year : Nat) : Nat := (daysBeforeYear year) % 7

/-- The number of ISO weeks of a year: 53 when it starts on a Thursday, or on a Wednesday and is a
leap year. -/
def isoWeeks (year : Nat) : Nat :=
  if firstWeekday year == 3 || (firstWeekday year == 2 && isLeap year) then 53 else 52

/-- The year, month and day of a weekday (1 to 7) of an ISO week. -/
def ofIsoWeek? (year week day : Nat) : Option (Nat × Nat × Nat) :=
  if year < 1 || 9999 < year || week < 1 || isoWeeks year < week || day < 1 || 7 < day then none
  else
    -- The first Monday on or before the first Thursday, counted from the day before year 1.
    let january := daysBeforeYear year
    let weekday := firstWeekday year
    let monday : Int := if weekday ≤ 3 then (january : Int) - weekday else (january : Int) + 7 - weekday
    let ordinal : Int := monday + (week - 1 : Nat) * 7 + (day - 1 : Nat)
    if ordinal < 0 then none
    else
      let n := ordinal.toNat
      let y :=
        if n < daysBeforeYear year then year - 1
        else if daysBeforeYear (year + 1) ≤ n then year + 1
        else year
      let (m, d) := monthAndDay y 11 1 (n - daysBeforeYear y)
      some (y, m, d)

end ApiSmith.Time
