import Syndicate.Calendar.Instant
import Syndicate.Value.Coerce

/-! Delays before publishing, as a rule writes them. A number counts milliseconds; a text is a span
such as `30m`, a span of days with a time added to it such as `1d 09:00`, or a weekday with a time
of day such as `Mon 10:00`, which stands for the next such moment. -/

namespace Syndicate.Delay

def minute : Nat := 60000
def hour : Nat := 60 * minute
def day : Nat := 24 * hour
def week : Nat := 7 * day

/-- A delay in text, after its shape and before its meaning. Digits are kept as written. -/
inductive Form where
  | span (count : List Char) (unit : Nat)
  | daysAndTime (days : List Char) (hours minutes : Nat)
  | weekday (name : List Char) (hours minutes : Nat)
  deriving DecidableEq

def unit? : Char → Option Nat
  | 'm' => some minute
  | 'h' => some hour
  | 'd' => some day
  | _ => none

/-- The weekdays by their first three letters, Monday first. -/
def weekdays : List (List Char) :=
  ["mon", "tue", "wed", "thu", "fri", "sat", "sun"].map String.toList

/-- The letter that a character is read as in the shape of a weekday: letters compare without
regard to case, and so do the long s and the two Turkish forms of i. -/
def letter (c : Char) : Char :=
  if c = 'ſ' then 's' else if c = 'ı' || c = 'İ' then 'i' else c.toLower

/-- Hours and minutes, two digits each with a colon between them. -/
def time? : List Char → Option (Nat × Nat)
  | [a, b, ':', c, d] =>
    if [a, b, c, d].all Text.isDigit
    then some (Text.digitsValue [a, b], Text.digitsValue [c, d]) else none
  | _ => none

/-- A time with blanks before it. -/
def blankTime? : List Char → Option (Nat × Nat)
  | c :: rest => if Text.isBlank c then time? (rest.dropWhile Text.isBlank) else none
  | [] => none

def weekdayForm? (cs : List Char) : Option Form :=
  if weekdays.contains ((cs.take 3).map letter)
  then (blankTime? (cs.drop 3)).map fun (h, m) => .weekday (cs.take 3) h m else none

def Form.ofChars? (cs : List Char) : Option Form :=
  let ds := cs.takeWhile Text.isDigit
  if ds = [] then weekdayForm? cs
  else match cs.dropWhile Text.isDigit with
    | [u] => (unit? u).map (.span ds)
    | 'd' :: rest => (blankTime? rest).map fun (h, m) => .daysAndTime ds h m
    | _ => none

/-- The number that digits write, unless there are too many of them. -/
def count (ds : List Char) : Outcome Nat :=
  if ds.length ≤ Text.maxDigits then .ok (Text.digitsValue ds)
  else faulty .tooManyDigits

/-- The place of a weekday in the week, which takes plain letters only. -/
def weekdayNumber (name : List Char) : Outcome Nat :=
  let i := weekdays.idxOf (name.map Char.toLower)
  if i < 7 then .ok i else faulty (.wrongValue "no plain letters")

/-- The milliseconds until the next moment with that weekday and time, rounded up; from such a
moment itself it is a week. -/
def untilWeekday (now : Instant) (weekday hours minutes : Nat) : Outcome Nat :=
  let ahead := (weekday + 7 - now.weekday) % 7
  let first := (now.dayNumber + ahead) * dayMicros + (hours * 60 + minutes) * 60000000
  let target := if first ≤ now.micros then first + 7 * dayMicros else first
  match Instant.ofMicros? target with
  | some t => .ok ((t.micros - now.micros + 999) / 1000)
  | none => faulty .overflow

/-- A literal that means no delay. -/
def refuse (literal : Value) : Outcome Nat := failShowing literal (.invalidDelay literal)

def isTimeOfDay (hours minutes : Nat) : Bool := hours ≤ 23 && minutes ≤ 59

/-- The milliseconds that a form means at an instant; `literal` is named when its time is none. -/
def Form.milliseconds (now : Instant) (literal : Value) : Form → Outcome Nat
  | .span ds u => do pure ((← count ds) * u)
  | .daysAndTime ds h m =>
    if isTimeOfDay h m then do pure ((← count ds) * day + h * hour + m * minute)
    else refuse literal
  | .weekday name h m =>
    if isTimeOfDay h m then do untilWeekday now (← weekdayNumber name) h m
    else refuse literal

/-- The delay in milliseconds that a literal means at an instant. -/
def parse (now : Instant) (literal : Value) : Outcome Nat :=
  match literal with
  | .null => .ok 0
  | .int i => if i < 0 then refuse literal else .ok i.toNat
  | .float x =>
    if x.lessInt 0 then refuse literal else do pure (← literal.toInt).toNat
  | .text s =>
    if s = "0" then .ok 0
    else match Form.ofChars? (Text.trim s.toList) with
      | some f => f.milliseconds now literal
      | none => refuse literal
  | _ => refuse literal

end Syndicate.Delay
