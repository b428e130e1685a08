import Syndicate.Binary64
import Syndicate.Text.Blank
import Syndicate.Text.Digit

/-! Numbers written in text. Blanks around a numeral are ignored, but for the four information
separators; digits may come from any script, and a single underscore may stand between two
digits. -/

namespace Syndicate.Text

/-- The most digits that an integer may have in text, in reading it and in showing it. -/
def maxDigits : Nat := 4300

/-- Digits of any script in their ASCII form. -/
def plainDigit (c : Char) : Char :=
  match digit? c with
  | some d => Nat.digitChar d
  | none => c

/-- Removes underscores, each of which must stand between two digits; `digit` says whether the
character before was one. -/
def joinDigits? : (digit : Bool) → List Char → Option (List Char)
  | _, [] => some []
  | prev, '_' :: c :: rest =>
    if prev && c.isDigit then (joinDigits? true rest).map (c :: ·) else none
  | _, ['_'] => none
  | _, c :: rest => (joinDigits? c.isDigit rest).map (c :: ·)

/-- The sign in front of a numeral, and the rest. -/
def splitSign : List Char → Bool × List Char
  | '-' :: rest => (true, rest)
  | '+' :: rest => (false, rest)
  | cs => (false, cs)

/-- The blanks that may stand around a numeral. -/
def isPadding (c : Char) : Bool := isBlank c && !(0x1c ≤ c.toNat && c.toNat ≤ 0x1f)

/-- The text of a numeral with its blanks and underscores removed, as sign and rest. -/
def numeral? (s : String) : Option (Bool × List Char) :=
  let (sign, rest) := splitSign ((trimOf isPadding s.toList).map plainDigit)
  (joinDigits? false rest).map (sign, ·)

def withSign (negative : Bool) (n : Nat) : Int := if negative then -n else n

def integer? (s : String) : Option Int := do
  let (sign, ds) ← numeral? s
  if ds ≠ [] && ds.all Char.isDigit && ds.length ≤ maxDigits
  then some (withSign sign (digitsValue ds)) else none

/-- The exponent part of a decimal numeral, without its letter. -/
def exponent? (cs : List Char) : Option Int :=
  let (sign, ds) := splitSign cs
  if ds ≠ [] && ds.all Char.isDigit then some (withSign sign (digitsValue ds)) else none

/-- Digits with at most one point among them, and an exponent to add. -/
def mantissa? (negative : Bool) (cs : List Char) (exponent : Int) : Option Binary64 :=
  let whole := cs.takeWhile Char.isDigit
  match cs.dropWhile Char.isDigit with
  | [] => if whole = [] then none
      else some (Binary64.ofDecimal negative (digitsValue whole) exponent)
  | '.' :: part =>
    if part.all Char.isDigit && (whole ≠ [] || part ≠ [])
    then some (Binary64.ofDecimal negative (digitsValue (whole ++ part)) (exponent - part.length))
    else none
  | _ => none

/-- A number with an optional point and an optional exponent. -/
def decimal? (negative : Bool) (cs : List Char) : Option Binary64 :=
  let front := cs.takeWhile fun c => c ≠ 'e' && c ≠ 'E'
  match cs.dropWhile fun c => c ≠ 'e' && c ≠ 'E' with
  | [] => mantissa? negative front 0
  | _ :: e => (exponent? e).bind (mantissa? negative front)

def float? (s : String) : Option Binary64 := do
  let (sign, cs) ← numeral? s
  let word := String.ofList (cs.map Char.toLower)
  if word = "inf" || word = "infinity" then some (.infinite sign)
  else if word = "nan" then some (.nan 0)
  else decimal? sign cs

end Syndicate.Text
