import Syndicate.Text.Numeral
import Syndicate.Value.Coerce

/-! What a plain scalar of a YAML document stands for: a truth value, null, a number, a date, a
timestamp, or its own text. Integers may be binary, octal, hexadecimal or in base sixty, and
underscores in numbers count for nothing. -/

namespace Syndicate.Yaml

/-- What is wrong with a document: its form, or a part of it that has the form of a number, a date
or a character and is none. -/
inductive Problem where
  | malformed
  /-- How much of the text has been seen when the problem shows, if not all of it. -/
  | impossible (fault : Fault) (seen : Option Nat)

abbrev Reading (α : Type) := Except Problem α

def malformed {α : Type} : Reading α := .error .malformed

def impossible {α : Type} (text : String) : Reading α := .error (.impossible (.wrongValue text) none)

namespace Scalar

def isTrue (s : String) : Bool :=
  ["yes", "Yes", "YES", "true", "True", "TRUE", "on", "On", "ON"].contains s

def isFalse (s : String) : Bool :=
  ["no", "No", "NO", "false", "False", "FALSE", "off", "Off", "OFF"].contains s

def isNull (s : String) : Bool := ["", "~", "null", "Null", "NULL"].contains s

/-- Scalars that no value is made for. -/
def isReserved (s : String) : Bool := ["=", "<<"].contains s

def isDigitOrLine (c : Char) : Bool := c.isDigit || c = '_'

/-- Digits and underscores, the first one a digit. -/
def isNumberRow : List Char → Bool
  | c :: cs => c.isDigit && cs.all isDigitOrLine
  | [] => false

/-- A part of a number in base sixty after its first: one or two digits, the first of two at most
five. -/
def isSixtieth : List Char → Bool
  | [c] => c.isDigit
  | [c, d] => '0' ≤ c && c ≤ '5' && d.isDigit
  | _ => false

def dropLines (cs : List Char) : List Char := cs.filter (· ≠ '_')

/-- The value of a letter or digit as a digit of a base. -/
def digitValue (c : Char) : Nat :=
  if c.isDigit then c.toNat - 0x30
  else if 'a' ≤ c && c ≤ 'f' then c.toNat - 0x61 + 10
  else c.toNat - 0x41 + 10

def isHexDigit (c : Char) : Bool := c.isDigit || ('a' ≤ c && c ≤ 'f') || ('A' ≤ c && c ≤ 'F')

/-- The number that digits of a base write, of which there must be one. -/
def inBase (base : Nat) (negative : Bool) (cs : List Char) : Reading Value :=
  match dropLines cs with
  | [] => impossible "no digits"
  | ds => .ok (.int (Text.withSign negative (ds.foldl (fun n c => n * base + digitValue c) 0)))

/-- The number that decimal digits write, unless they are too many. -/
def decimalDigits (ds : List Char) : Reading Nat :=
  if ds.length ≤ Text.maxDigits then .ok (Text.digitsValue ds)
  else .error (.impossible .tooManyDigits none)

/-- The number that parts in base sixty write. -/
def inSixties (parts : List (List Char)) : Reading Nat :=
  parts.foldlM (fun n part => do pure (n * 60 + (← decimalDigits part))) 0

/-- The reading of an integer, for a text that has the form of one. -/
def integer? (s : String) : Option (Reading Value) :=
  let (negative, cs) := Text.splitSign s.toList
  let signed (n : Reading Nat) : Reading Value := do pure (.int (Text.withSign negative (← n)))
  match cs with
  | ['0'] => some (.ok (.int 0))
  | '0' :: 'b' :: ds =>
    if ds ≠ [] && ds.all fun c => c = '0' || c = '1' || c = '_' then some (inBase 2 negative ds)
    else none
  | '0' :: 'x' :: ds =>
    if ds ≠ [] && ds.all fun c => isHexDigit c || c = '_' then some (inBase 16 negative ds)
    else none
  | '0' :: ds =>
    if ds.all fun c => ('0' ≤ c && c ≤ '7') || c = '_' then some (inBase 8 negative ('0' :: ds))
    else none
  | c :: _ =>
    if !c.isDigit then none
    else match cs.splitOn ':' with
      | [row] => if isNumberRow row then some (signed (decimalDigits (dropLines row))) else none
      | row :: parts =>
        if isNumberRow row && parts.all isSixtieth
        then some (signed (inSixties ((row :: parts).map dropLines))) else none
      | [] => none
  | [] => none

/-- An exponent with its sign, or nothing at all. -/
def isExponent : List Char → Bool
  | [] => true
  | e :: s :: ds => (e = 'e' || e = 'E') && (s = '-' || s = '+') && ds ≠ [] && ds.all Char.isDigit
  | _ => false

def isInfinity (s : String) : Bool := [".inf", ".Inf", ".INF"].contains s
def isNan (s : String) : Bool := [".nan", ".NaN", ".NAN"].contains s

/-- Whether a text without sign has the form of a number with a point. A row of digits before the
point may be missing only without a sign. -/
def isDecimal (signed : Bool) (cs : List Char) : Bool :=
  let row := cs.takeWhile isDigitOrLine
  match cs.drop row.length with
  | '.' :: rest =>
    let part := rest.takeWhile isDigitOrLine
    isExponent (rest.drop part.length) &&
      (if row = [] then !signed && isNumberRow part else isNumberRow row)
  | _ => false

/-- Whether a text without sign is a number in base sixty with a point in its last part. -/
def isSixtiesDecimal (cs : List Char) : Bool :=
  match cs.splitOn ':' with
  | row :: part :: parts =>
    let last := (part :: parts).getLast?.getD []
    let digits := last.takeWhile Char.isDigit
    match last.drop digits.length with
    | '.' :: rest =>
      isNumberRow row && (part :: parts).dropLast.all isSixtieth && isSixtieth digits &&
        rest.all isDigitOrLine
    | _ => false
  | _ => false

/-- The number that parts in base sixty write, added up from the last one, unless a power of sixty is
too large for a number with a point. -/
def sixtiesDecimal (parts : List (List Char)) : Reading Binary64 := do
  let add (acc : Binary64 × Int) (part : List Char) : Reading (Binary64 × Int) :=
    match Text.decimal? false part, Binary64.ofInt? acc.2 with
    | some digit, some power => .ok (acc.1.add (digit.mul power), acc.2 * 60)
    | none, _ => impossible "no digits"
    | _, none => .error (.impossible .overflow none)
  pure (← parts.reverse.foldlM add (Binary64.zero, 1)).1

/-- The mark of what is no number in a document. -/
def nanMark : Nat := 1

/-- The reading of a number with a point, for a text that has the form of one. -/
def float? (s : String) : Option (Reading Value) :=
  let cs := s.toList
  let (negative, rest) := Text.splitSign cs
  let signed := rest.length < cs.length
  let withSign (x : Binary64) : Value := .float (if negative then x.neg else x)
  if isInfinity (String.ofList rest) then some (.ok (.float (.infinite negative)))
  else if isNan s then some (.ok (.float (.nan nanMark)))
  else if isDecimal signed rest then
    (Text.decimal? false (dropLines rest)).map fun x => .ok (withSign x)
  else if isSixtiesDecimal rest then
    some (do pure (withSign (← sixtiesDecimal ((dropLines rest).splitOn ':'))))
  else none

/-- The reading of a date, for a text that has the form of one. -/
def date? (s : String) : Option (Reading Value) :=
  match s.toList with
  | [a, b, c, d, '-', e, f, '-', g, h] =>
    if [a, b, c, d, e, f, g, h].all Char.isDigit then
      some (match Date.ofParts? (Text.digitsValue [a, b, c, d]) (Text.digitsValue [e, f])
          (Text.digitsValue [g, h]) with
        | some date => .ok (.date date)
        | none => impossible "day is out of range for month")
    else none
  | _ => none

/-- A number of at least and at most so many digits at the front of a text. -/
def takeNumber? (least most : Nat) (cs : List Char) : Option (Nat × List Char) :=
  let ds := (cs.take most).takeWhile Char.isDigit
  if least ≤ ds.length then some (Text.digitsValue ds, cs.drop ds.length) else none

/-- What follows a mark that must stand at the front of a text. -/
def takeMark? (mark : Char) : List Char → Option (List Char)
  | c :: cs => if c = mark then some cs else none
  | [] => none

def isSpaceOrTab (c : Char) : Bool := c = ' ' || c = '\t'

/-- What stands between a day and a time of day: a letter, or blanks. -/
def takeGap? : List Char → Option (List Char)
  | 'T' :: cs | 't' :: cs => some cs
  | c :: cs => if isSpaceOrTab c then some (cs.dropWhile isSpaceOrTab) else none
  | [] => none

/-- The microseconds behind a second, of which six digits count. -/
def takeFraction : List Char → Nat × List Char
  | '.' :: cs =>
    let ds := cs.takeWhile Char.isDigit
    (Text.digitsValue ((ds ++ List.replicate 6 '0').take 6), cs.drop ds.length)
  | cs => (0, cs)

/-- The seconds that a clock is ahead of universal time: hours, and minutes if there are any. -/
def offsetOf? (negative : Bool) (cs : List Char) : Option Int := do
  let (h, cs) ← takeNumber? 1 2 cs
  let (m, cs) ← if cs = [] then some (0, []) else takeNumber? 2 2 (← takeMark? ':' cs)
  if cs = [] then some (Text.withSign negative (h * 3600 + m * 60)) else none

/-- The zone at the end of a timestamp, if it has one; nothing if something else is there. -/
def zone? (cs : List Char) : Option (Option Int) :=
  match cs, cs.dropWhile isSpaceOrTab with
  | [], _ => some none
  | _, ['Z'] => some (some 0)
  | _, '-' :: rest => (offsetOf? true rest).map some
  | _, '+' :: rest => (offsetOf? false rest).map some
  | _, _ => none

/-- The reading of a timestamp, for a text that has the form of one. -/
def timestamp? (s : String) : Option (Reading Value) := do
  let (year, cs) ← takeNumber? 4 4 s.toList
  let (month, cs) ← takeNumber? 1 2 (← takeMark? '-' cs)
  let (day, cs) ← takeNumber? 1 2 (← takeMark? '-' cs)
  let (hour, cs) ← takeNumber? 1 2 (← takeGap? cs)
  let (minute, cs) ← takeNumber? 2 2 (← takeMark? ':' cs)
  let (second, cs) ← takeNumber? 2 2 (← takeMark? ':' cs)
  let (micros, cs) := takeFraction cs
  let offset ← zone? cs
  some (match Timestamp.ofParts? (Date.ofParts? year month day) hour minute second micros offset with
    | some t => .ok (.timestamp t)
    | none => impossible "out of range")

/-- The value of a plain scalar. -/
def resolve (s : String) : Reading Value :=
  if isNull s then .ok .null
  else if isTrue s then .ok (.bool true)
  else if isFalse s then .ok (.bool false)
  else if isReserved s then malformed
  else ((((float? s).or (integer? s)).or (date? s)).or (timestamp? s)).getD (.ok (.text s))

end Scalar

end Syndicate.Yaml
