import Syndicate.Calendar.Date

/-! Days with a time of day, to the microsecond, and how far the clock that shows them is ahead of
universal time, if that is known. -/

namespace Syndicate

structure Timestamp where
  date : Date
  hour : Nat := 0
  minute : Nat := 0
  second : Nat := 0
  microsecond : Nat := 0
  /-- Seconds ahead of universal time; nothing for a clock of which that is not known. -/
  offset : Option Int := none
  deriving DecidableEq, Inhabited

namespace Timestamp

/-- The seconds of a day, which an offset stays below. -/
def daySeconds : Int := 86400

/-- A timestamp, if there is one of these parts. -/
def ofParts? (date : Option Date) (hour minute second microsecond : Nat) (offset : Option Int) :
    Option Timestamp :=
  if hour < 24 && minute < 60 && second < 60 &&
      offset.all fun o => -daySeconds < o && o < daySeconds then
    date.map fun d => ⟨d, hour, minute, second, microsecond, offset⟩
  else none

/-- Microseconds since the calendar began, on the clock that shows the timestamp. -/
def micros (t : Timestamp) : Int :=
  ((t.date.number * 24 + t.hour) * 60 + t.minute) * 60000000 + t.second * 1000000 + t.microsecond

/-- Whether two timestamps are one point in time. They cannot be if the offset of just one is
known. -/
def same (s t : Timestamp) : Bool :=
  match s.offset, t.offset with
  | none, none => s == t
  | some o, some p => s.micros - o * 1000000 == t.micros - p * 1000000
  | _, _ => false

def offsetText (offset : Int) : String :=
  let minutes := offset.natAbs / 60
  (if offset < 0 then "-" else "+") ++ Date.padded 2 (minutes / 60) ++ ":" ++
    Date.padded 2 (minutes % 60)

/-- The timestamp with a mark between the day and the time of day. -/
def displayWith (mark : String) (t : Timestamp) : String :=
  t.date.display ++ mark ++ Date.padded 2 t.hour ++ ":" ++ Date.padded 2 t.minute ++ ":" ++
    Date.padded 2 t.second ++
    (if t.microsecond = 0 then "" else "." ++ Date.padded 6 t.microsecond) ++
    (t.offset.map offsetText).getD ""

def display (t : Timestamp) : String := t.displayWith " "

/-- The form of an offset inside brackets. -/
def quotedOffset (offset : Int) : String :=
  if offset = 0 then "datetime.timezone.utc"
  else
    let days := if offset < 0 then ["days=-1"] else []
    let seconds := if offset < 0 then offset + daySeconds else offset
    "datetime.timezone(datetime.timedelta(" ++
      ", ".intercalate (days ++ ["seconds=" ++ toString seconds]) ++ "))"

/-- The form of a timestamp inside brackets: its parts, of which zeros at the end are left out
from the seconds on. -/
def quoted (t : Timestamp) : String :=
  let fine := if t.microsecond = 0 then (if t.second = 0 then [] else [t.second])
    else [t.second, t.microsecond]
  let parts := [t.date.year, t.date.month, t.date.day, t.hour, t.minute] ++ fine
  "datetime.datetime(" ++ ", ".intercalate (parts.map toString ++
    t.offset.toList.map fun o => "tzinfo=" ++ quotedOffset o) ++ ")"

end Timestamp

end Syndicate
