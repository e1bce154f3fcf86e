import ApiSmith.Time.Calendar

/-!
# Moments

A moment is a date and a time of day to the microsecond, with the distance of its clock from UTC
where that is known. A moment without one is placed by the time zone of the process when it is sent.
-/

namespace ApiSmith.Time

open ApiSmith.Number

def dayMicros : Int := 86400000000

/-- Whether the parts are a moment: a date, a time of day, and an offset of less than a day. -/
def isMoment (year month day hour minute second micro : Nat) (offset : Option Int) : Bool :=
  isDate year month day && hour < 24 && minute < 60 && second < 60 && micro < 1000000 &&
    match offset with
    | none => true
    | some o => -dayMicros < o && o < dayMicros

/-- A date and time of day. -/
structure Moment where
  /-- The year, 1 to 9999. -/
  year : Nat
  /-- The month, 1 to 12. -/
  month : Nat
  day : Nat
  /-- The hour, below 24. -/
  hour : Nat
  minute : Nat
  second : Nat
  micro : Nat
  /-- How many microseconds the clock is ahead of UTC. -/
  offset : Option Int
  valid : isMoment year month day hour minute second micro offset = true
  deriving DecidableEq, Repr

namespace Moment

def of? (year month day hour minute second micro : Nat) (offset : Option Int) : Option Moment :=
  if h : isMoment year month day hour minute second micro offset = true then
    some ⟨year, month, day, hour, minute, second, micro, offset, h⟩
  else none

/-- An offset as signed hours and minutes, and seconds and microseconds where they are not zero. -/
def offsetText (o : Int) : List Char :=
  let micros := o.natAbs
  let seconds := micros / 1000000
  let fraction := micros % 1000000
  (if o < 0 then '-' else '+') :: padded 2 (seconds / 3600) ++ [':'] ++
    padded 2 (seconds / 60 % 60) ++
    (if seconds % 60 == 0 && fraction == 0 then [] else ':' :: padded 2 (seconds % 60)) ++
    (if fraction == 0 then [] else '.' :: padded 6 fraction)

def secondsText (m : Moment) : List Char :=
  padded 4 m.year ++ ['-'] ++ padded 2 m.month ++ ['-'] ++ padded 2 m.day ++ ['T'] ++
    padded 2 m.hour ++ [':'] ++ padded 2 m.minute ++ [':'] ++ padded 2 m.second

/-- The moment with its microseconds and offset, where it has them. -/
def isoText (m : Moment) : List Char :=
  m.secondsText ++ (if m.micro == 0 then [] else '.' :: padded 6 m.micro) ++
    (match m.offset with
      | none => []
      | some o => offsetText o)

def isFirstDay (m : Moment) : Bool := m.year == 1 && m.month == 1 && m.day == 1

def isLastDay (m : Moment) : Bool := m.year == 9999 && m.month == 12 && m.day == 31

def sinceMidnight (m : Moment) : Nat :=
  ((m.hour * 60 + m.minute) * 60 + m.second) * 1000000 + m.micro

end Moment

/-! ## Time zones -/

/-- The time zone of a process, by the place that it gives to a moment without an offset: a moment on
its clock, with the offset at that time. A time that the clock shows twice has the first of its two
places. Near the ends of the calendar there may be no place. -/
structure Zone where
  place? : Moment → Option Moment
  offset_isSome : ∀ {m p : Moment}, place? m = some p → p.offset.isSome = true

/-- The zone whose clock differs from UTC by the same offset at all times. To place a moment it looks
a day back and counts the moment in UTC, and both have to be in the calendar. -/
def Zone.fixed (offset : Int) : Zone where
  place? m :=
    if m.isFirstDay || m.isLastDay && dayMicros ≤ m.sinceMidnight + offset.natAbs then none
    else Moment.of? m.year m.month m.day m.hour m.minute m.second m.micro (some offset)
  offset_isSome := by
    intro m p h
    split at h
    · cases h
    · unfold Moment.of? at h
      split at h
      · cases h
        rfl
      · cases h

def Zone.utc : Zone := .fixed 0

namespace Moment

/-- The moment with its offset, which the zone gives where the moment has none. -/
def located? (zone : Zone) (m : Moment) : Option Moment :=
  match m.offset with
  | some _ => some m
  | none => zone.place? m

/-- The moment as it is sent: to the second, with its offset, UTC written `Z`. -/
def sendText? (zone : Zone) (m : Moment) : Option (List Char) := do
  let p ← m.located? zone
  let o ← p.offset
  pure (p.secondsText ++ if o == 0 then ['Z'] else offsetText o)

end Moment

end ApiSmith.Time
