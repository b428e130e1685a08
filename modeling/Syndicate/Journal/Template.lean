import Syndicate.Binary64.Fixed
import Syndicate.Value.Coerce

/-! Messages with places for values. A place begins with a percent sign; then come marks, a width
and, behind a point, a precision, either of which may be a star that takes it from the values; and
last a letter, the kind of the place. The letter may follow an idle one that tells a size. Every
place takes the next value, and no value may be left over. Two percent signs are one in the
text. -/

namespace Syndicate

/-- A place for a value, before its kind. -/
structure Place where
  leftAligned : Bool := false
  signed : Bool := false
  spaced : Bool := false
  alternate : Bool := false
  zeroFilled : Bool := false
  width : Nat := 0
  precision : Option Nat := none

namespace Place

/-- The marks in front of a width. -/
def readMarks (p : Place) : List Char → Place × List Char
  | '-' :: cs => readMarks { p with leftAligned := true } cs
  | '+' :: cs => readMarks { p with signed := true } cs
  | ' ' :: cs => readMarks { p with spaced := true } cs
  | '#' :: cs => readMarks { p with alternate := true } cs
  | '0' :: cs => readMarks { p with zeroFilled := true } cs
  | cs => (p, cs)

/-- The largest width and the largest precision. -/
def maxWidth : Nat := 9223372036854775807
def maxPrecision : Nat := 2147483647

/-- A width or precision: digits, or a star that takes the next value. -/
def readSize (limit : Nat) (cs : List Char) (values : List Value) :
    Outcome (Int × List Char × List Value) :=
  match cs with
  | '*' :: cs => match values with
    | [] => faulty .wrongType
    | v :: values => match v.asInt? with
      | none => faulty .wrongType
      | some i => if i < -(limit : Int) - 1 || (limit : Int) < i then faulty .overflow
        else .ok (i, cs, values)
  | _ =>
    let ds := cs.takeWhile Char.isDigit
    let n := Text.digitsValue ds
    if limit < n then faulty (.wrongValue "too big") else .ok (n, cs.drop ds.length, values)

/-- A place up to its kind, and what is left of the message and of the values. A negative width
aligns to the left, and a negative precision is zero. -/
def read (cs : List Char) (values : List Value) : Outcome (Place × List Char × List Value) := do
  if cs.head? = some '(' then faulty .wrongType
  else
    let (p, cs) := readMarks {} cs
    let (width, cs, values) ← readSize maxWidth cs values
    let p := { p with width := width.natAbs, leftAligned := p.leftAligned || width < 0 }
    let (p, cs, values) ← match cs with
      | '.' :: cs => do
        let (precision, cs, values) ← readSize maxPrecision cs values
        pure ({ p with precision := some precision.toNat }, cs, values)
      | _ => .ok (p, cs, values)
    match cs with
    | 'h' :: cs | 'l' :: cs | 'L' :: cs => .ok (p, cs, values)
    | _ => .ok (p, cs, values)

/-- A text in its place: its sign, the two characters that tell a base, and the rest. Zeros go
between these and the rest, blanks in front of all or behind. -/
def arrange (p : Place) (sign base rest : List Char) : List Char :=
  let room (c : Char) := List.replicate (p.width - (sign.length + base.length + rest.length)) c
  if p.leftAligned then sign ++ base ++ rest ++ room ' '
  else if p.zeroFilled then sign ++ base ++ room '0' ++ rest
  else room ' ' ++ sign ++ base ++ rest

/-- A text, cut to the precision. -/
def text (p : Place) (s : String) : List Char :=
  let cs := s.toList
  arrange { p with zeroFilled := false } [] [] (cs.take (p.precision.getD cs.length))

/-- A single character, which the precision does not cut. -/
def character (p : Place) (c : Char) : List Char := text { p with precision := none } c.toString

/-- The sign that a number shows. -/
def signOf (p : Place) (negative : Bool) : List Char :=
  if negative then ['-'] else if p.signed then ['+'] else if p.spaced then [' '] else []

/-- An integer in some base, with the precision as its least number of digits. -/
def integer (p : Place) (base : Nat) (mark : List Char) (i : Int) : List Char :=
  let ds := Nat.toDigits base i.natAbs
  arrange p (p.signOf (i < 0)) (if p.alternate then mark else [])
    (List.replicate (p.precision.getD 0 - ds.length) '0' ++ ds)

/-- A number in a form for finite magnitudes, six being the usual precision. -/
def number (p : Place) (form : Bool → Nat → Nat → List Char) (x : Binary64) : List Char :=
  match x.textWith (form p.alternate (p.precision.getD 6)) with
  | '-' :: cs => arrange p (p.signOf true) [] cs
  | cs => arrange p (p.signOf false) [] cs

/-- A text with an escape for every character beyond the first 128. -/
def plainText (s : String) : String :=
  String.ofList (s.toList.flatMap fun c => if c.toNat < 128 then [c] else Text.escapeCode c.toNat)

def upper (cs : List Char) : List Char := cs.map Char.toUpper

/-- The integer that a value is for a decimal place, a fraction being dropped. -/
def wholeOf : Value → Outcome Int
  | .text _ | .null | .list _ | .map _ | .date _ | .timestamp _ => faulty .wrongType
  | v => v.toInt

/-- The integer that a value is for a place in another base. -/
def exactOf (v : Value) : Outcome Int :=
  match v.asInt? with
  | some i => .ok i
  | none => faulty .wrongType

/-- The number that a value is, which is not read from text. -/
def numberOf : Value → Outcome Binary64
  | .text _ => faulty .wrongType
  | v => v.toFloat

/-- The character that a value is: a text of one, or a code. -/
def characterOf : Value → Outcome Char
  | .text s => match s.toList with
    | [c] => .ok c
    | _ => faulty .wrongType
  | v => do
    let i ← exactOf v
    if i < 0 || 0x10ffff < i then faulty .overflow
    else if 0xd800 ≤ i && i < 0xe000 then pure (Char.ofNat 0xfffd)
    else pure (Char.ofNat i.toNat)

/-- A value in a place of a kind. -/
def fill (p : Place) (kind : Char) (v : Value) : Outcome (List Char) :=
  match kind with
  | 's' => do pure (p.text (← v.shown))
  | 'r' => do pure (p.text (← v.shownQuoted))
  | 'a' => do pure (p.text (plainText (← v.shownQuoted)))
  | 'd' | 'i' | 'u' => do
    let i ← wholeOf v
    let _ ← (Value.int i).shown
    pure (integer { p with alternate := false } 10 [] i)
  | 'o' => do pure (p.integer 8 "0o".toList (← exactOf v))
  | 'x' => do pure (p.integer 16 "0x".toList (← exactOf v))
  | 'X' => do pure (upper (p.integer 16 "0x".toList (← exactOf v)))
  | 'f' => do pure (p.number Binary64.fixedText (← numberOf v))
  | 'F' => do pure (upper (p.number Binary64.fixedText (← numberOf v)))
  | 'e' => do pure (p.number Binary64.scientificText (← numberOf v))
  | 'E' => do pure (upper (p.number Binary64.scientificText (← numberOf v)))
  | 'g' => do pure (p.number Binary64.generalText (← numberOf v))
  | 'G' => do pure (upper (p.number Binary64.generalText (← numberOf v)))
  | 'c' => do pure (p.character (← characterOf v))
  | _ => faulty (.wrongValue "unsupported format character")

end Place

namespace Template

/-- Puts values into the places of a message, in order. Every step takes one unit of fuel and a
character at least. -/
def fill : (fuel : Nat) → List Char → (values : List Value) → Outcome (List Char)
  | _, [], [] => .ok []
  | _, [], _ => faulty .wrongType
  | 0, _, _ => .ok []
  | n + 1, '%' :: '%' :: cs, values => do pure ('%' :: (← fill n cs values))
  | n + 1, '%' :: cs, values => do
    let (place, cs, values) ← Place.read cs values
    match cs, values with
    | [], _ => faulty (.wrongValue "incomplete format")
    | _, [] => faulty .wrongType
    | kind :: cs, v :: values => do
      let text ← place.fill kind v
      pure (text ++ (← fill n cs values))
  | n + 1, c :: cs, values => do pure (c :: (← fill n cs values))

/-- A message with values in its places; without values it stays as it is. -/
def message (template : String) (values : List Value) : Outcome String :=
  if values.isEmpty then .ok template
  else do pure (String.ofList (← fill template.length template.toList values))

end Template

end Syndicate
