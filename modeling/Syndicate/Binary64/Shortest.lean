import Syndicate.Binary64

/-! The shortest decimal of a binary number: the fewest digits that read back as the number, and
of those the digits nearest to it. For one digit, two digits and so on, the two neighbours of the
number on the grid of that many digits are tried; if any decimal of the grid reads back, one of
its two neighbours does. Seventeen digits always suffice. -/

namespace Syndicate.Binary64

/-- A decimal with positive digits: `digits * 10 ^ exponent`. -/
structure Decimal where
  digits : Nat
  exponent : Int
  deriving DecidableEq

/-- The exponent of the leading digit of a positive magnitude. -/
def leading (units : Nat) : Int :=
  if one ≤ units then ((Nat.toDigits 10 (units / one)).length - 1 : Nat)
  else -(((List.range 330).find? fun k => one ≤ units * tenTo k).getD 330 : Nat)

/-- A decimal and a count of quarter units on one scale, so that they can be compared. -/
def scaled (d : Decimal) (quarters : Nat) : Nat × Nat :=
  if 0 ≤ d.exponent then (d.digits * tenTo d.exponent.toNat * (4 * one), quarters)
  else (d.digits * (4 * one), quarters * tenTo (-d.exponent).toNat)

/-- Whether a decimal rounds to the magnitude. Below a power of two the neighbour is half as far
away, and the ends of the interval belong to it when the significand is even. -/
def readsBack (units : Nat) (d : Decimal) : Bool :=
  let s := step units
  let below := if units = twoTo 52 * s && s ≠ 1 then s else 2 * s
  let (x, lo) := scaled d (4 * units - below)
  let (_, hi) := scaled d (4 * units + 2 * s)
  if units / s % 2 = 0 then lo ≤ x && x ≤ hi else lo < x && x < hi

/-- The neighbours of a magnitude on the grid of decimals with the given exponent. -/
def neighbours (units : Nat) (exponent : Int) : Decimal × Decimal :=
  let n := if 0 ≤ exponent then units / (one * tenTo exponent.toNat)
    else units * tenTo (-exponent).toNat / one
  (⟨n, exponent⟩, ⟨n + 1, exponent⟩)

/-- Whether the first neighbour is the nearer one, a tie going to the even digit. -/
def lowerIsNearer (units : Nat) (lo hi : Decimal) : Bool :=
  let (a, x) := scaled lo (4 * units)
  let (b, _) := scaled hi (4 * units)
  2 * x < a + b || (2 * x = a + b && lo.digits % 2 = 0)

def onGrid (units : Nat) (exponent : Int) : Option Decimal :=
  let (lo, hi) := neighbours units exponent
  match readsBack units lo && lo.digits ≠ 0, readsBack units hi with
  | true, true => some (if lowerIsNearer units lo hi then lo else hi)
  | true, false => some lo
  | false, true => some hi
  | false, false => none

/-- Moves trailing zeros of the digits to the exponent. -/
def Decimal.strip (d : Decimal) : (fuel : Nat) → Decimal
  | 0 => d
  | n + 1 => if d.digits % 10 = 0 && d.digits ≠ 0
      then Decimal.strip ⟨d.digits / 10, d.exponent + 1⟩ n else d

/-- The shortest decimal of a positive magnitude. -/
def shortest (units : Nat) : Decimal :=
  let e := leading units
  (((List.range 17).findSome? fun k : Nat => onGrid units (e - k)).getD
    (neighbours units (e - 16)).1).strip 17

end Syndicate.Binary64
