import Syndicate.Calendar.Date
import Syndicate.Text.Digit

/-! Local time to the microsecond, without a zone. An instant is the count of microseconds since
the calendar began, so that differences and weekdays are plain arithmetic. -/

namespace Syndicate

def dayMicros : Nat := 86400000000

structure Instant where
  micros : Nat
  lt_end : micros < Date.count * dayMicros
  deriving DecidableEq

namespace Instant

instance : Inhabited Instant := ⟨⟨0, by decide⟩⟩

def ofMicros? (n : Nat) : Option Instant :=
  if h : n < Date.count * dayMicros then some ⟨n, h⟩ else none

def dayNumber (t : Instant) : Nat := t.micros / dayMicros

def date (t : Instant) : Date := Date.ofNumber t.dayNumber

/-- The day of the week, Monday being zero. -/
def weekday (t : Instant) : Nat := t.dayNumber % 7

def hour (t : Instant) : Nat := t.micros % dayMicros / 3600000000
def minute (t : Instant) : Nat := t.micros % 3600000000 / 60000000
def second (t : Instant) : Nat := t.micros % 60000000 / 1000000
def microsecond (t : Instant) : Nat := t.micros % 1000000

/-- The instant as logs show it, the fraction only when there is one. -/
def display (t : Instant) : String :=
  t.date.display ++ " " ++ Date.padded 2 t.hour ++ ":" ++ Date.padded 2 t.minute ++ ":" ++
    Date.padded 2 t.second ++
    (if t.microsecond = 0 then "" else "." ++ Date.padded 6 t.microsecond)

/-- The instant as file names hold it, down to the second. -/
def stamp (t : Instant) : String :=
  toString t.date.year ++ Date.padded 2 t.date.month ++ Date.padded 2 t.date.day ++
    Date.padded 2 t.hour ++ Date.padded 2 t.minute ++ Date.padded 2 t.second

/-- A row of digits of a given length at the front of a text. -/
def takeNumber? (width : Nat) (cs : List Char) : Option (Nat × List Char) :=
  let ds := cs.take width
  if ds.length = width && ds.all Char.isDigit then some (Text.digitsValue ds, cs.drop width)
  else none

/-- A character that must stand at the front of a text. -/
def takeMark? (c : Char) : List Char → Option (List Char)
  | d :: rest => if c = d then some rest else none
  | [] => none

/-- The fraction of a second, to six digits. -/
def fraction? : List Char → Option Nat
  | [] => some 0
  | c :: ds =>
    if (c = '.' || c = ',') && ds ≠ [] && ds.all Char.isDigit
    then some (Text.digitsValue ((ds ++ List.replicate 6 '0').take 6)) else none

/-- Reads `YYYY-MM-DD` and, after one character, a time of day down to the microsecond. -/
def parse? (s : String) : Option Instant := do
  let (y, r) ← takeNumber? 4 s.toList
  let (mo, r) ← takeNumber? 2 (← takeMark? '-' r)
  let (d, r) ← takeNumber? 2 (← takeMark? '-' r)
  let date ← Date.ofParts? y mo d
  let at? (h mi se us : Nat) : Option Instant :=
    if h < 24 && mi < 60 && se < 60 then
      ofMicros? (date.number * dayMicros + ((h * 60 + mi) * 60 + se) * 1000000 + us)
    else none
  match r with
  | [] => at? 0 0 0 0
  | _ :: r =>
    let (h, r) ← takeNumber? 2 r
    if r = [] then at? h 0 0 0 else
    let (mi, r) ← takeNumber? 2 (← takeMark? ':' r)
    if r = [] then at? h mi 0 0 else
    let (se, r) ← takeNumber? 2 (← takeMark? ':' r)
    at? h mi se (← fraction? r)

end Instant

end Syndicate
