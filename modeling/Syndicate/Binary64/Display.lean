import Syndicate.Binary64.Shortest

/-! How a floating point number is written: its shortest digits, positionally while the leading
digit's exponent is from -4 to 15 and with at least one digit after the point, else with an
exponent of a sign and at least two digits. -/

namespace Syndicate.Binary64

def isPositional (leading : Int) : Bool := -4 ≤ leading && leading < 16

/-- Digits with the point after the first `whole` of them, filled up with zeros. -/
def withPoint (ds : List Char) (whole : Int) : List Char :=
  if whole ≤ 0 then "0.".toList ++ List.replicate (-whole).toNat '0' ++ ds
  else
    let w := whole.toNat
    if ds.length ≤ w then ds ++ List.replicate (w - ds.length) '0' ++ ".0".toList
    else ds.take w ++ '.' :: ds.drop w

def exponentText (e : Int) : List Char :=
  let ds := Nat.toDigits 10 e.natAbs
  (if e < 0 then '-' else '+') :: (if ds.length < 2 then '0' :: ds else ds)

def decimalText (d : Decimal) : List Char :=
  let ds := Nat.toDigits 10 d.digits
  let leading : Int := d.exponent + (ds.length - 1 : Nat)
  if isPositional leading then withPoint ds (leading + 1)
  else
    match ds with
    | [] => []
    | [c] => c :: 'e' :: exponentText leading
    | c :: rest => c :: '.' :: rest ++ 'e' :: exponentText leading

def display : Binary64 → String
  | .nan _ => "nan"
  | .infinite s => if s then "-inf" else "inf"
  | .finite s u =>
    String.ofList ((if s then ['-'] else []) ++
      (if u = 0 then "0.0".toList else decimalText (shortest u)))

end Syndicate.Binary64
