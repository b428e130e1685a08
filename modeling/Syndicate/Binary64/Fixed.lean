import Syndicate.Binary64.Display

/-! Floating point numbers with a number of digits that is asked for: so many places behind the
point, or so many significant digits with or without an exponent. The digits are those of the
exact value, rounded once and a tie to the even digit. What `alternate` asks for is a point even
where no digit follows it, and with it the zeros at the end that are left out otherwise. -/

namespace Syndicate.Binary64

/-- The digits of a number, filled up with zeros on the left. -/
def digitsTo (width n : Nat) : List Char :=
  let ds := Nat.toDigits 10 n
  List.replicate (width - ds.length) '0' ++ ds

/-- Digits behind a point, or nothing when there are none. -/
def pointed (alternate : Bool) (ds : List Char) : List Char :=
  if ds = [] && !alternate then [] else '.' :: ds

/-- A magnitude with a number of places behind the point. -/
def fixedText (alternate : Bool) (places units : Nat) : List Char :=
  let ds := digitsTo (places + 1) (roundHalfEven (units * tenTo places) one)
  let whole := ds.length - places
  ds.take whole ++ pointed alternate (ds.drop whole)

/-- A magnitude rounded to a number of significant digits: these, and the leading one's
exponent. -/
def significant (count units : Nat) : List Char × Int :=
  if units = 0 then (List.replicate count '0', 0)
  else
    let e := leading units
    let shift : Int := (count : Int) - 1 - e
    let n := if 0 ≤ shift then roundHalfEven (units * tenTo shift.toNat) one
      else roundHalfEven units (one * tenTo (-shift).toNat)
    if n = tenTo count then (digitsTo count (n / 10), e + 1) else (digitsTo count n, e)

/-- Digits with a point behind the first one, and an exponent. -/
def withExponent (alternate : Bool) (ds : List Char) (e : Int) : List Char :=
  ds.take 1 ++ pointed alternate (ds.drop 1) ++ 'e' :: exponentText e

/-- A magnitude with an exponent and a number of places behind the point. -/
def scientificText (alternate : Bool) (places units : Nat) : List Char :=
  let (ds, e) := significant (places + 1) units
  withExponent alternate ds e

/-- Digits without the zeros at their end. -/
def withoutZeros (ds : List Char) : List Char := (ds.reverse.dropWhile (· = '0')).reverse

/-- A magnitude with a number of significant digits, positional while that takes no zeros to fill
up with but a few behind the point. -/
def generalText (alternate : Bool) (count units : Nat) : List Char :=
  let count := max count 1
  let (all, e) := significant count units
  let ds := if alternate then all else all.take 1 ++ withoutZeros (all.drop 1)
  if e < -4 || count ≤ e then withExponent alternate ds e
  else if e < 0 then "0.".toList ++ List.replicate (-e - 1).toNat '0' ++ ds
  else
    let whole := e.toNat + 1
    ds.take whole ++ List.replicate (whole - ds.length) '0' ++ pointed alternate (ds.drop whole)

/-- A number in a form for finite magnitudes. -/
def textWith (form : Nat → List Char) : Binary64 → List Char
  | .nan _ => "nan".toList
  | .infinite s => (if s then "-inf" else "inf").toList
  | .finite s u => (if s then ['-'] else []) ++ form u

end Syndicate.Binary64
